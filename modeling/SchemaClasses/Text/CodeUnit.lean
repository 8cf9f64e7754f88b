/-!
# Code points

A text is a list of code points.  Nearly all of them are characters, but an escape may also give
half of a pair, which is no character and yet may stand alone in a text.  So that texts stay
ordinary strings, the last character of all serves as a mark: after the mark, a private character
stands for a half, and a second mark for the last character itself.  `encode` writes code points in
this form, `codePoints` finds them again, and every other character is simply itself.
-/

namespace SchemaClasses.Text

def lastPoint : Nat := 0x10FFFF

/-- The character after which another one has a meaning of its own. -/
def mark : Char := Char.ofNat lastPoint

def isHalf (n : Nat) : Bool := 0xD800 ≤ n && n < 0xE000

/-- The distance from a half to the private character that stands for it after the mark. -/
def halfDistance : Nat := 0x100000

/-! ## Writing -/

/-- The characters that stand for a code point. -/
def encodePoint (n : Nat) : List Char :=
  if isHalf n then [mark, Char.ofNat (halfDistance + n)]
  else if n = lastPoint then [mark, mark]
  else [Char.ofNat n]

/-- The characters that stand for code points. -/
def encode (ns : List Nat) : List Char := ns.flatMap encodePoint

def ofChars (cs : List Char) : String := String.ofList (encode (cs.map Char.toNat))

/-- The code point that two code units make together, if they are the halves of a pair. -/
def pair? (high low : Nat) : Option Nat :=
  if 0xD800 ≤ high && high < 0xDC00 && 0xDC00 ≤ low && low < 0xE000 then
    some (0x10000 + (high - 0xD800) * 0x400 + (low - 0xDC00))
  else none

/-! ## Reading -/

def markedPoint (c : Char) : Nat := if c = mark then lastPoint else c.toNat - halfDistance

/-- The code points of characters; `marked` says whether a mark stands before them. -/
def pointsAfter : Bool → List Char → List Nat
  | _, [] => []
  | true, c :: rest => markedPoint c :: pointsAfter false rest
  | false, c :: rest => if c = mark then pointsAfter true rest else c.toNat :: pointsAfter false rest

def codePoints (s : String) : List Nat := pointsAfter false s.toList

/-- The characters that a text without halves stands for. -/
def plainChars (s : String) : List Char := (codePoints s).map Char.ofNat

/-- Whether a text holds half of a pair, which has no bytes. -/
def hasHalf (s : String) : Bool := (codePoints s).any isHalf

/-- Whether one list of numbers stands before another in the order of a dictionary, or equals it. -/
def precedesPoints : List Nat → List Nat → Bool
  | [], _ => true
  | _ :: _, [] => false
  | m :: ms, n :: ns => m < n || (m == n && precedesPoints ms ns)

/-- Whether one text stands before another or equals it, code point by code point. -/
def precedes (s t : String) : Bool := precedesPoints (codePoints s) (codePoints t)

/-! ## Reading what was written -/

theorem toNat_ofNat {n : Nat} (h : n.isValidChar) : (Char.ofNat n).toNat = n := by
  rw [Char.ofNat, dif_pos h]
  rfl

theorem toNat_mark : mark.toNat = lastPoint := toNat_ofNat (by decide)

/-- A number below the last code point that is no half is that of a character. -/
theorem isValidChar_of_not_isHalf {n : Nat} (small : n ≤ lastPoint) (h : isHalf n = false) :
    n.isValidChar := by
  simp only [isHalf, Bool.and_eq_false_iff, decide_eq_false_iff_not] at h
  unfold lastPoint at small
  unfold Nat.isValidChar
  omega

/-- The private character of a half. -/
theorem toNat_half {n : Nat} (h : isHalf n = true) :
    (Char.ofNat (halfDistance + n)).toNat = halfDistance + n := by
  refine toNat_ofNat ?_
  simp only [isHalf, Bool.and_eq_true, decide_eq_true_eq] at h
  unfold halfDistance Nat.isValidChar
  omega

/-- The private character of a half is not the mark, and gives the half back. -/
theorem markedPoint_half {n : Nat} (h : isHalf n = true) :
    markedPoint (Char.ofNat (halfDistance + n)) = n := by
  have value := toNat_half h
  simp only [isHalf, Bool.and_eq_true, decide_eq_true_eq] at h
  have other : Char.ofNat (halfDistance + n) ≠ mark := by
    intro equal
    have := congrArg Char.toNat equal
    rw [value, toNat_mark] at this
    unfold halfDistance lastPoint at this
    omega
  rw [markedPoint, if_neg other, value, Nat.add_sub_cancel_left]

/-- One code point that was written is found again. -/
theorem pointsAfter_encodePoint {n : Nat} (small : n ≤ lastPoint) (rest : List Char) :
    pointsAfter false (encodePoint n ++ rest) = n :: pointsAfter false rest := by
  unfold encodePoint
  split
  · next h => simp [pointsAfter, markedPoint_half h]
  · next h =>
    split
    · next last => simp [pointsAfter, markedPoint, last]
    · next notLast =>
      have value := toNat_ofNat (isValidChar_of_not_isHalf small (Bool.eq_false_iff.2 h))
      have other : Char.ofNat n ≠ mark := by
        intro equal
        have := congrArg Char.toNat equal
        rw [value, toNat_mark] at this
        exact notLast this
      simp [pointsAfter, other, value]

/-- The code points that were written are found again. -/
theorem pointsAfter_encode {ns : List Nat} (small : ∀ n ∈ ns, n ≤ lastPoint) :
    pointsAfter false (encode ns) = ns := by
  induction ns with
  | nil => rfl
  | cons n rest ih =>
    rw [encode, List.flatMap_cons, pointsAfter_encodePoint (small n List.mem_cons_self)]
    rw [← encode, ih fun m hm => small m (List.mem_cons_of_mem n hm)]

end SchemaClasses.Text
