import Mathlib.Data.List.TakeDrop
import Mathlib.Data.List.TakeWhile
import SchemaClasses.Document.Source
import SchemaClasses.Proofs.TextKeys

/-!
# What JSON writes

A value that is read from JSON is regular in every respect.  The keys of its mappings are texts, no
key stands twice in a mapping, nothing contains itself, and the whole value can be shown, because a
number that is too long and a value that is too deep are refused where they are read.  `Regular`
says all of this, and it passes from a value to its parts.

Behind `regular_of_read` is an induction over the three functions of the reader that call each other
(`Reads`).  What has been read so far of a list or a mapping is carried along; the members become a
mapping only at its end, when repeated keys are dropped.
-/

namespace SchemaClasses

namespace Value

/-! ## Trees -/

mutual

/-- The value is a tree in which collections stand inside each other at most to a depth, and all its
scalars can be shown. -/
def treeWithin (depth : Nat) : Value → Bool
  | scalar s => s.limit?.isNone
  | list items ring => ring.isNone && decide (0 < depth) && treesWithin (depth - 1) items
  | mapping entries ring => ring.isNone && decide (0 < depth) && entriesWithin (depth - 1) entries

def treesWithin (depth : Nat) : List Value → Bool
  | [] => true
  | v :: rest => v.treeWithin depth && treesWithin depth rest

def entriesWithin (depth : Nat) : List (Scalar × Value) → Bool
  | [] => true
  | (k, v) :: rest => k.limit?.isNone && v.treeWithin depth && entriesWithin depth rest

end

lemma treesWithin_iff {depth : Nat} {items : List Value} :
    treesWithin depth items = true ↔ ∀ v ∈ items, v.treeWithin depth = true := by
  induction items with
  | nil => simp [treesWithin]
  | cons v rest ih => simp [treesWithin, ih]

lemma entriesWithin_iff {depth : Nat} {entries : List (Scalar × Value)} :
    entriesWithin depth entries = true ↔
      ∀ e ∈ entries, e.1.limit? = none ∧ e.2.treeWithin depth = true := by
  induction entries with
  | nil => simp [entriesWithin]
  | cons e rest ih => simp [entriesWithin, ih]

lemma treeWithin_list_iff {depth : Nat} {items : List Value} {ring : Option Nat} :
    (list items ring).treeWithin depth = true ↔
      ring = none ∧ 0 < depth ∧ ∀ v ∈ items, v.treeWithin (depth - 1) = true := by
  rw [treeWithin, Bool.and_eq_true, Bool.and_eq_true, Option.isNone_iff_eq_none,
    decide_eq_true_iff, treesWithin_iff, and_assoc]

lemma treeWithin_mapping_iff {depth : Nat} {entries : List (Scalar × Value)}
    {ring : Option Nat} : (mapping entries ring).treeWithin depth = true ↔
      ring = none ∧ 0 < depth ∧
        ∀ e ∈ entries, e.1.limit? = none ∧ e.2.treeWithin (depth - 1) = true := by
  rw [treeWithin, Bool.and_eq_true, Bool.and_eq_true, Option.isNone_iff_eq_none,
    decide_eq_true_iff, entriesWithin_iff, and_assoc]

mutual

/-- A tree fits into a greater depth as well. -/
theorem treeWithin_mono {depth depth' : Nat} (hle : depth ≤ depth') :
    ∀ v : Value, v.treeWithin depth = true → v.treeWithin depth' = true
  | scalar s, h => by rwa [treeWithin] at h ⊢
  | list items ring, h => by
      rw [treeWithin, Bool.and_eq_true, Bool.and_eq_true, decide_eq_true_iff] at h ⊢
      obtain ⟨⟨hring, hdepth⟩, hitems⟩ := h
      exact ⟨⟨hring, by omega⟩, treesWithin_mono (by omega) items hitems⟩
  | mapping entries ring, h => by
      rw [treeWithin, Bool.and_eq_true, Bool.and_eq_true, decide_eq_true_iff] at h ⊢
      obtain ⟨⟨hring, hdepth⟩, hentries⟩ := h
      exact ⟨⟨hring, by omega⟩, entriesWithin_mono (by omega) entries hentries⟩

theorem treesWithin_mono {depth depth' : Nat} (hle : depth ≤ depth') :
    ∀ items : List Value, treesWithin depth items = true → treesWithin depth' items = true
  | [], _ => by rw [treesWithin]
  | v :: rest, h => by
      rw [treesWithin, Bool.and_eq_true] at h ⊢
      exact ⟨treeWithin_mono hle v h.1, treesWithin_mono hle rest h.2⟩

theorem entriesWithin_mono {depth depth' : Nat} (hle : depth ≤ depth') :
    ∀ entries : List (Scalar × Value), entriesWithin depth entries = true →
      entriesWithin depth' entries = true
  | [], _ => by rw [entriesWithin]
  | (k, v) :: rest, h => by
      rw [entriesWithin, Bool.and_eq_true, Bool.and_eq_true] at h ⊢
      exact ⟨⟨h.1.1, treeWithin_mono hle v h.1.2⟩, entriesWithin_mono hle rest h.2⟩

end

mutual

/-- A tree can be shown, if there is as much room as it is deep. -/
theorem limitInside_of_treeWithin {depth : Nat} (around : List Nat) :
    ∀ v : Value, v.treeWithin depth = true → v.limitInside around depth = none
  | scalar s, h => by
      rw [treeWithin, Option.isNone_iff_eq_none] at h
      rw [limitInside, h]
  | list items ring, h => by
      rw [treeWithin, Bool.and_eq_true, Bool.and_eq_true, Option.isNone_iff_eq_none,
        decide_eq_true_iff] at h
      obtain ⟨⟨rfl, hdepth⟩, hitems⟩ := h
      rw [limitInside, if_neg (by simp), if_neg (by omega)]
      exact limitOfItems_of_treesWithin _ items hitems
  | mapping entries ring, h => by
      rw [treeWithin, Bool.and_eq_true, Bool.and_eq_true, Option.isNone_iff_eq_none,
        decide_eq_true_iff] at h
      obtain ⟨⟨rfl, hdepth⟩, hentries⟩ := h
      rw [limitInside, if_neg (by simp), if_neg (by omega)]
      exact limitOfEntries_of_entriesWithin _ entries hentries

theorem limitOfItems_of_treesWithin {depth : Nat} (around : List Nat) :
    ∀ items : List Value, treesWithin depth items = true → limitOfItems around depth items = none
  | [], _ => by rw [limitOfItems]
  | v :: rest, h => by
      rw [treesWithin, Bool.and_eq_true] at h
      rw [limitOfItems, limitInside_of_treeWithin around v h.1,
        limitOfItems_of_treesWithin around rest h.2, Option.none_or]

theorem limitOfEntries_of_entriesWithin {depth : Nat} (around : List Nat) :
    ∀ entries : List (Scalar × Value), entriesWithin depth entries = true →
      limitOfEntries around depth entries = none
  | [], _ => by rw [limitOfEntries]
  | (k, v) :: rest, h => by
      rw [entriesWithin, Bool.and_eq_true, Bool.and_eq_true, Option.isNone_iff_eq_none] at h
      rw [limitOfEntries, h.1.1, limitInside_of_treeWithin around v h.1.2,
        limitOfEntries_of_entriesWithin around rest h.2, Option.none_or, Option.none_or]

end

/-! ## Regular values -/

/-- A tree with text keys, none of them twice in a mapping, that can be shown. -/
structure Regular (v : Value) : Prop where
  textKeyed : v.textKeyed = true
  tree : v.treeWithin mostShownDepth = true

instance (v : Value) : Decidable v.Regular :=
  decidable_of_iff (v.textKeyed = true ∧ v.treeWithin mostShownDepth = true)
    ⟨fun h => ⟨h.1, h.2⟩, fun h => ⟨h.textKeyed, h.tree⟩⟩

namespace Regular

variable {v : Value} {items : List Value} {m : Mapping} {ring : Option Nat}

lemma limit?_eq_none (h : v.Regular) : v.limit? = none := limitInside_of_treeWithin [] v h.tree

lemma item (h : (list items ring).Regular) (hv : v ∈ items) : v.Regular := by
  obtain ⟨-, -, hitems⟩ := treeWithin_list_iff.1 h.tree
  have hkeyed := h.textKeyed
  rw [textKeyed_list, textKeyedItems_iff] at hkeyed
  exact ⟨hkeyed v hv, treeWithin_mono (Nat.sub_le _ _) v (hitems v hv)⟩

lemma ring_eq_none (h : (mapping m ring).Regular) : ring = none :=
  (treeWithin_mapping_iff.1 h.tree).1

lemma keyed (h : (mapping m ring).Regular) : textKeyedEntries m = true := by
  rw [← textKeyed_mapping m ring]
  exact h.textKeyed

lemma textKeys (h : (mapping m ring).Regular) : Entries.TextKeys m :=
  Mapping.textKeys_of_textKeyed h.keyed

/-- What stands in a regular mapping is regular. -/
lemma entry (h : (mapping m ring).Regular) {e : Scalar × Value} (he : e ∈ m) : e.2.Regular := by
  obtain ⟨-, -, hentries⟩ := treeWithin_mapping_iff.1 h.tree
  exact ⟨Mapping.textKeyed_of_mem h.keyed he,
    treeWithin_mono (Nat.sub_le _ _) e.2 (hentries e he).2⟩

lemma field? {name : String} (h : (mapping m ring).Regular)
    (hv : Mapping.field? m name = some v) : v.Regular :=
  h.entry (Entries.mem_of_get?_text hv)

end Regular

end Value

/-! ## Reading -/

namespace Json

open Decimal (Binary64)
open Text.Ascii (isDigit decimalValue)
open Value (textKeyedItems_iff treeWithin_list_iff treeWithin_mapping_iff)

lemma toNat_le_of_isDigit {c : Char} (h : isDigit c = true) : c.toNat ≤ '9'.toNat := by
  rw [isDigit, Bool.and_eq_true, decide_eq_true_iff, decide_eq_true_iff] at h
  exact h.2

lemma tenPow_succ (k : Nat) : Decimal.tenPow (k + 1) = Decimal.tenPow k * 10 := rfl

lemma tenPow_le_tenPow {k l : Nat} (h : k ≤ l) : Decimal.tenPow k ≤ Decimal.tenPow l :=
  Nat.pow_le_pow_right (by decide) h

/-- A number is less than the power of ten that has more digits. -/
lemma decimalValue_lt {digits : List Char} (h : ∀ c ∈ digits, isDigit c = true) :
    decimalValue digits < Decimal.tenPow digits.length := by
  have hfold : ∀ n, digits.foldl (fun n c => 10 * n + (c.toNat - '0'.toNat)) n <
      (n + 1) * Decimal.tenPow digits.length := by
    induction digits with
    | nil =>
        intro n
        change n < (n + 1) * 1
        omega
    | cons c rest ih =>
        obtain ⟨hc, hrest⟩ := List.forall_mem_cons.1 h
        intro n
        have hdigit : c.toNat - '0'.toNat ≤ 9 := Nat.sub_le_sub_right (toNat_le_of_isDigit hc) _
        calc rest.foldl _ (10 * n + (c.toNat - '0'.toNat))
            < (10 * n + (c.toNat - '0'.toNat) + 1) * Decimal.tenPow rest.length := ih hrest _
          _ ≤ ((n + 1) * 10) * Decimal.tenPow rest.length :=
              Nat.mul_le_mul_right _ (by omega)
          _ = (n + 1) * Decimal.tenPow (rest.length + 1) := by
              rw [tenPow_succ, Nat.mul_assoc, Nat.mul_comm 10]
  simpa [decimalValue] using hfold 0

/-- What is read as a scalar that can be shown. -/
def IsShown (v : Value) : Prop := ∃ s : Scalar, v = .scalar s ∧ s.limit? = none

lemma isShown_integer {negative : Bool} {digits : List Char} {v : Value}
    (hdigits : ∀ c ∈ digits, isDigit c = true) (h : integer negative digits = .ok v) :
    IsShown v := by
  rw [integer] at h
  split at h
  · cases h
  · rename_i hlength
    have hless : decimalValue digits < leastUnshown :=
      lt_of_lt_of_le (decimalValue_lt hdigits) (tenPow_le_tenPow (Nat.le_of_not_lt hlength))
    refine ⟨_, (Except.ok.inj h).symm, ?_⟩
    rw [Scalar.limit?, if_neg]
    split
    · rw [Int.natAbs_neg, Int.natAbs_natCast]
      omega
    · rw [Int.natAbs_natCast]
      omega

lemma isDigit_of_digitsAfter {cs digits rest : List Char}
    (h : digitsAfter cs = some (digits, rest)) : ∀ c ∈ digits, isDigit c = true := by
  rw [digitsAfter, List.span_eq_takeWhile_dropWhile] at h
  split at h
  · cases h
  · rename_i heq
    obtain ⟨rfl, -⟩ := Prod.mk.inj (Option.some.inj h)
    obtain ⟨rfl, -⟩ := Prod.mk.inj heq
    exact fun c hc => List.mem_takeWhile_imp hc

lemma isShown_unsigned? {negative : Bool} {cs rest : List Char} {v : Value}
    (h : unsigned? negative cs = some (.ok v, rest)) : IsShown v := by
  unfold unsigned? at h
  obtain ⟨⟨digits, more⟩, hwhole, h⟩ := Option.map_eq_some_iff.1 h
  have hdigits : ∀ c ∈ digits, isDigit c = true := by
    split at hwhole
    · obtain ⟨rfl, -⟩ := Prod.mk.inj (Option.some.inj hwhole)
      exact List.forall_mem_singleton.2 rfl
    · exact isDigit_of_digitsAfter hwhole
  have hnumber : ∀ {p : Prop} [Decidable p] {d : Binary64} {after after' : List Char},
      (if p then (integer negative digits, after) else (.ok (.scalar (.double d)), after')) =
        ((.ok v, rest) : Except UnreadableText Value × List Char) → IsShown v := by
    intro p _ d after after' h
    split at h
    · exact isShown_integer hdigits (Prod.mk.inj h).1
    · exact ⟨_, (Except.ok.inj (Prod.mk.inj h).1).symm, rfl⟩
  dsimp only at h
  split at h
  · exact hnumber h
  · exact hnumber h

lemma isShown_name {cs rest : List Char} {v : Value} (h : name cs = .ok (v, rest)) :
    IsShown v := by
  rw [name] at h
  split at h
  · rename_i result hfound
    obtain rfl := Except.ok.inj h
    obtain ⟨⟨word, w⟩, hmem, hword⟩ := List.exists_of_findSome?_eq_some hfound
    obtain ⟨_, -, hresult⟩ := Option.map_eq_some_iff.1 hword
    obtain ⟨rfl, -⟩ := Prod.mk.inj hresult
    have hnames : ∀ e ∈ names, e.2.scalar?.any (·.limit?.isNone) = true := by decide
    have hw := hnames _ hmem
    cases w with
    | scalar s => exact ⟨s, rfl, Option.isNone_iff_eq_none.1 hw⟩
    | list items ring => cases hw
    | mapping entries ring => cases hw
  · cases h

lemma isShown_atom {cs rest : List Char} {v : Value} (h : atom cs = .ok (v, rest)) :
    IsShown v := by
  unfold atom at h
  dsimp only at h
  split at h
  · rename_i w more hnumber
    obtain ⟨rfl, -⟩ := Prod.mk.inj (Except.ok.inj h)
    split at hnumber
    · exact isShown_unsigned? hnumber
    · exact isShown_unsigned? hnumber
  · cases h
  · exact isShown_name h

/-- What the reader makes of a list or a mapping has its parts one level deeper. -/
def Made (depth : Nat) (v : Value) : Prop :=
  v.textKeyed = true ∧ v.treeWithin depth = true

lemma IsShown.made {v : Value} (h : IsShown v) (depth : Nat) : Made depth v := by
  obtain ⟨s, rfl, hs⟩ := h
  exact ⟨Value.textKeyed_scalar s, by rw [Value.treeWithin, hs]; rfl⟩

lemma made_list {depth : Nat} {items : List Value} (h : ∀ v ∈ items, Made depth v) :
    Made (depth + 1) (.list items) := by
  refine ⟨?_, treeWithin_list_iff.2 ⟨rfl, Nat.succ_pos _, fun v hv => (h v hv).2⟩⟩
  rw [Value.textKeyed_list, textKeyedItems_iff]
  exact fun v hv => (h v hv).1

/-- A member, as it is read: under a text. -/
def MadeMember (depth : Nat) (e : Scalar × Value) : Prop :=
  (∃ s, e.1 = .text s) ∧ Made depth e.2

lemma made_mapping {depth : Nat} {pairs : List (Scalar × Value)}
    (h : ∀ e ∈ pairs, MadeMember depth e) :
    Made (depth + 1) (.mapping (Entries.ofPairs pairs)) := by
  have hkeys : Entries.TextKeys (Entries.ofPairs pairs) :=
    Entries.textKeys_foldl_insert (fun e he => (h e he).1) ⟨List.forall_mem_nil _, List.nodup_nil⟩
  have hvalues : ∀ e ∈ Entries.ofPairs pairs, Made depth e.2 :=
    Entries.forall_foldl_insert (fun e he => (h e he).2) (List.forall_mem_nil _)
  refine ⟨?_, treeWithin_mapping_iff.2 ⟨rfl, Nat.succ_pos _, fun e he => ⟨?_, (hvalues e he).2⟩⟩⟩
  · rw [Value.textKeyed_mapping]
    exact Mapping.textKeyed_of_textKeys hkeys fun e he => (hvalues e he).1
  · obtain ⟨s, hs⟩ := hkeys.1 e he
    rw [hs, Scalar.limit?_text]

/-- The functions of the reader, with so much fuel, make what they read as deep as it may be. -/
structure Reads (fuel : Nat) : Prop where
  value : ∀ {depth : Nat} {cs rest : List Char} {v : Value},
    Json.value depth fuel cs = .ok (v, rest) → Made depth v
  items : ∀ {depth : Nat} {collected : List Value} {cs rest : List Char} {v : Value},
    Json.items depth fuel collected cs = .ok (v, rest) → (∀ w ∈ collected, Made depth w) →
      Made (depth + 1) v
  members : ∀ {depth : Nat} {collected : List (Scalar × Value)} {cs rest : List Char} {v : Value},
    Json.members depth fuel collected cs = .ok (v, rest) →
      (∀ e ∈ collected, MadeMember depth e) → Made (depth + 1) v

namespace Reads

variable {fuel depth : Nat} {cs rest : List Char} {v : Value}

lemma value_succ (h : Reads fuel) (hv : Json.value depth (fuel + 1) cs = .ok (v, rest)) :
    Made depth v := by
  have hdepth : ¬ depth = 0 → depth - 1 + 1 = depth := by omega
  unfold Json.value at hv
  split at hv
  · split at hv
    · obtain ⟨rfl, -⟩ := Prod.mk.inj (Except.ok.inj hv)
      exact IsShown.made ⟨_, rfl, rfl⟩ depth
    · cases hv
  · split at hv
    · cases hv
    · rename_i hroom
      rw [← hdepth hroom]
      split at hv
      · obtain ⟨rfl, -⟩ := Prod.mk.inj (Except.ok.inj hv)
        exact made_list (List.forall_mem_nil _)
      · exact h.items hv (List.forall_mem_nil _)
  · split at hv
    · cases hv
    · rename_i hroom
      rw [← hdepth hroom]
      split at hv
      · obtain ⟨rfl, -⟩ := Prod.mk.inj (Except.ok.inj hv)
        exact @made_mapping _ [] (List.forall_mem_nil _)
      · exact h.members hv (List.forall_mem_nil _)
  · exact (isShown_atom hv).made depth

lemma items_succ {collected : List Value} (h : Reads fuel)
    (hv : Json.items depth (fuel + 1) collected cs = .ok (v, rest))
    (hcollected : ∀ w ∈ collected, Made depth w) : Made (depth + 1) v := by
  unfold Json.items at hv
  split at hv
  · cases hv
  · rename_i w more hw
    have hnext : ∀ u ∈ w :: collected, Made depth u :=
      List.forall_mem_cons.2 ⟨h.value hw, hcollected⟩
    split at hv
    · exact h.items hv hnext
    · obtain ⟨rfl, -⟩ := Prod.mk.inj (Except.ok.inj hv)
      exact made_list fun u hu => hnext u (List.mem_reverse.1 hu)
    · cases hv

lemma members_succ {collected : List (Scalar × Value)} (h : Reads fuel)
    (hv : Json.members depth (fuel + 1) collected cs = .ok (v, rest))
    (hcollected : ∀ e ∈ collected, MadeMember depth e) : Made (depth + 1) v := by
  unfold Json.members at hv
  split at hv
  · split at hv
    · cases hv
    · rename_i key more hkey
      split at hv
      · split at hv
        · cases hv
        · rename_i w more hw
          have hnext : ∀ e ∈ (Scalar.text key, w) :: collected, MadeMember depth e :=
            List.forall_mem_cons.2 ⟨⟨⟨key, rfl⟩, h.value hw⟩, hcollected⟩
          dsimp only at hv
          split at hv
          · exact h.members hv hnext
          · obtain ⟨rfl, -⟩ := Prod.mk.inj (Except.ok.inj hv)
            exact made_mapping fun e he => hnext e (List.mem_reverse.1 he)
          · cases hv
      · cases hv
  · cases hv

end Reads

/-- Whatever the reader makes, it makes of texts as keys, and no deeper than it may be. -/
theorem reads (fuel : Nat) : Reads fuel := by
  induction fuel with
  | zero =>
      refine ⟨fun h => ?_, fun h => ?_, fun h => ?_⟩
      · rw [value] at h
        cases h
      · rw [items] at h
        cases h
      · rw [members] at h
        cases h
  | succ fuel ih => exact ⟨ih.value_succ, ih.items_succ, ih.members_succ⟩

/-- **What JSON writes is regular.** -/
theorem regular_of_read {s : String} {v : Value} (h : read s = .ok v) : v.Regular := by
  rw [read] at h
  split at h
  · rename_i w rest hvalue
    split at h
    · obtain rfl := Except.ok.inj h
      obtain ⟨hkeyed, htree⟩ := (reads _).value hvalue
      exact ⟨hkeyed, htree⟩
    · cases h
  · cases h

lemma regular_of_readFile {text : String} {v : Value} (h : Format.json.readFile text = .ok v) :
    v.Regular :=
  regular_of_read h

end Json

end SchemaClasses
