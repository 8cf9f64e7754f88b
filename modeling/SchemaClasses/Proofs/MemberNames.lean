import SchemaClasses.Language.CSharp
import SchemaClasses.Language.Php
import SchemaClasses.Proofs.ClassText
import SchemaClasses.Proofs.Discriminator
import SchemaClasses.Proofs.FileNames

/-!
# When a member is declared twice

The properties of a component have different names, but the members of its class are named after
them with a change: the first character goes to upper case, a keyword is escaped, and a property
that would be called like its own field or its class gets a suffix.  A changed name may meet a name
that was there before, or another changed name, and nothing prevents this.

`CSharp.Clash` lists all the ways in which it happens, in terms of the names that the schema gives,
and `nodup_members_iff` says that these are all.  Behind it stands one fact about letters: a
character in upper case is neither a small letter nor the sign that escapes a keyword, unless it
is one already (`capital_of_mem_upperChar`).  So no changed name is ever escaped.
-/

namespace SchemaClasses

/-! ## Upper case -/

namespace Text

/-- A small letter of the first half of a byte, where all keywords start. -/
def SmallLetter (c : Char) : Prop := 'a'.toNat ≤ c.toNat ∧ c.toNat ≤ 'z'.toNat

instance (c : Char) : Decidable (SmallLetter c) := inferInstanceAs (Decidable (_ ∧ _))

/-- A capital, or a character behind the small letters. -/
def Capital (n : Nat) : Prop := 'A'.toNat ≤ n ∧ n ≤ 'Z'.toNat ∨ 'z'.toNat < n

instance (n : Nat) : Decidable (Capital n) := inferInstanceAs (Decidable (_ ∨ _))

lemma capital_of_upperExpansions : ∀ e ∈ upperExpansions, e.2 ≠ [] ∧
    ∀ n ∈ e.2, n.isValidChar ∧ Capital n := by
  decide +kernel

lemma capital_of_upperRuns : ∀ r ∈ upperRuns, r.last < 128 ∨
    ('A'.toNat : Int) ≤ r.first + r.shift ∧ r.last + r.shift ≤ ('Z'.toNat : Int) ∨
      ('z'.toNat : Int) < r.first + r.shift := by
  decide +kernel

lemma capital_of_moves {r : CaseRun} (hr : r ∈ upperRuns) {n : Nat} (hn : 128 ≤ n)
    (h : r.moves n = true) : Capital (r.target n) := by
  simp only [CaseRun.moves, Bool.and_eq_true, decide_eq_true_eq] at h
  have hbounds := capital_of_upperRuns r hr
  have hA : 'A'.toNat = 65 := rfl
  have hZ : 'Z'.toNat = 90 := rfl
  have hz : 'z'.toNat = 122 := rfl
  rw [hA, hZ, hz] at hbounds
  rw [Capital, hA, hZ, hz, CaseRun.target]
  omega

/-- **Upper case gives capitals**, and leaves what it cannot change. -/
lemma capital_of_mem_upperChar {c d : Char} (h : d ∈ upperChar c) :
    Capital d.toNat ∨ d = c ∧ ¬ SmallLetter c := by
  have ha : 'a'.toNat = 97 := rfl
  have hA : 'A'.toNat = 65 := rfl
  have hZ : 'Z'.toNat = 90 := rfl
  have hz : 'z'.toNat = 122 := rfl
  rcases mem_upperChar h with
    ⟨-, rfl⟩ | ⟨hwide, ⟨e, he, n, hn, rfl⟩ | ⟨r, hr, hmoves, rfl⟩ | rfl⟩
  · rcases toUpper_cases c with ⟨hfirst, hlast, hmoved⟩ | hsame
    · rw [Capital, hA, hZ]
      omega
    · exact Or.inr hsame.symm
  · obtain ⟨hvalid, hcapital⟩ := (capital_of_upperExpansions e he).2 n hn
    rw [toNat_ofNat hvalid]
    exact Or.inl hcapital
  · rw [toNat_ofNat (wordLike_of_moves hr hmoves).1]
    exact Or.inl (capital_of_moves hr hwide hmoves)
  · rw [Capital, hz]
    omega

lemma not_small_of_mem_upperChar {c d : Char} (h : d ∈ upperChar c) : ¬ SmallLetter d := by
  rcases capital_of_mem_upperChar h with hcapital | ⟨rfl, hsmall⟩
  · have ha : 'a'.toNat = 97 := rfl
    have hZ : 'Z'.toNat = 90 := rfl
    rw [Capital, hZ] at hcapital
    rw [SmallLetter, ha]
    omega
  · exact hsmall

lemma upperChar_ne_nil (c : Char) : upperChar c ≠ [] := by
  rw [upperChar]
  split
  · simp
  · rcases upperMap.apply_cases c with ⟨codes, hcodes, happly⟩ | ⟨r, -, -, happly⟩ | happly
    · rw [happly, ne_eq, List.map_eq_nil_iff]
      exact (capital_of_upperExpansions _ hcodes).1
    · simp [happly]
    · simp [happly]

/-- The first character of a text in upper case is no small letter. -/
lemma not_small_upperFirst {s : String} {d : Char} {rest : List Char}
    (h : (upperFirst s).toList = d :: rest) : ¬ SmallLetter d := by
  rw [upperFirst, String.toList_ofList] at h
  cases hs : s.toList with
  | nil => simp [hs] at h
  | cons c tail =>
      rw [hs, mapFirst_cons] at h
      obtain ⟨d', others, hupper⟩ := List.exists_cons_of_ne_nil (upperChar_ne_nil c)
      rw [hupper, List.cons_append, List.cons.injEq] at h
      rw [← h.1]
      exact not_small_of_mem_upperChar (hupper ▸ List.mem_cons_self)

/-- Only a text that starts with the sign gives one that does, and then it is unchanged. -/
lemma upperFirst_of_at {s : String} {rest : List Char}
    (h : (upperFirst s).toList = '@' :: rest) : upperFirst s = s := by
  have hat : ¬ Capital '@'.toNat := by decide
  rw [upperFirst, String.toList_ofList] at h
  cases hs : s.toList with
  | nil => simp [hs] at h
  | cons c tail =>
      rw [hs, mapFirst_cons] at h
      obtain ⟨d, others, hupper⟩ := List.exists_cons_of_ne_nil (upperChar_ne_nil c)
      rw [hupper, List.cons_append, List.cons.injEq] at h
      obtain rfl := h.1
      have hmem : '@' ∈ upperChar c := hupper ▸ List.mem_cons_self
      obtain rfl : '@' = c := ((capital_of_mem_upperChar hmem).resolve_left hat).1
      apply String.toList_injective
      rw [upperFirst, String.toList_ofList, hs]
      rfl

/-- A class name starts with the upper case of a letter or a digit. -/
lemma joinWords_cons {cs : List Char} {d : Char} {rest : List Char}
    (h : joinWords wordKind none cs = d :: rest) :
    ∃ c, (∃ kind, wordKind c = some kind) ∧ d ∈ upperChar c := by
  induction cs with
  | nil => simp [joinWords] at h
  | cons c tail ih =>
      rw [joinWords] at h
      split at h
      · exact ih h
      · rename_i kind hkind
        obtain ⟨d', others, hupper⟩ := List.exists_cons_of_ne_nil (upperChar_ne_nil c)
        rw [if_neg (by simp), hupper, List.cons_append, List.cons.injEq] at h
        exact ⟨c, ⟨kind, hkind⟩, h.1 ▸ hupper ▸ List.mem_cons_self⟩

lemma pascalCase_cons {s : String} {d : Char} {rest : List Char}
    (h : (pascalCase s).toList = d :: rest) : ¬ SmallLetter d ∧ d ≠ '@' := by
  have hat : ¬ Capital '@'.toNat := by decide
  rw [pascalCase, String.toList_ofList] at h
  obtain ⟨c, ⟨kind, hkind⟩, hd⟩ := joinWords_cons h
  refine ⟨not_small_of_mem_upperChar hd, ?_⟩
  rintro rfl
  obtain rfl : '@' = c := ((capital_of_mem_upperChar hd).resolve_left hat).1
  simp [wordKind, isDigit, isLetter] at hkind

lemma capital_or_wordKind_of_joinWords {cs : List Char} {previous : Option WordKind} {d : Char}
    (h : d ∈ joinWords wordKind previous cs) :
    Capital d.toNat ∨ ∃ kind, wordKind d = some kind := by
  obtain ⟨c, -, kind, hkind, hbecomes⟩ := exists_of_mem_joinWords h
  rcases hbecomes with rfl | hupper
  · exact Or.inr ⟨kind, hkind⟩
  · rcases capital_of_mem_upperChar hupper with hcapital | ⟨rfl, -⟩
    · exact Or.inl hcapital
    · exact Or.inr ⟨kind, hkind⟩

/-- A class name has no mark that is neither a capital nor part of a word. -/
lemma not_mem_pascalCase {mark : Char} (hcapital : ¬ Capital mark.toNat)
    (hkind : wordKind mark = none) (s : String) : mark ∉ (pascalCase s).toList := by
  intro hmem
  rw [pascalCase, String.toList_ofList] at hmem
  rcases capital_or_wordKind_of_joinWords hmem with h | ⟨kind, h⟩
  · exact hcapital h
  · rw [hkind] at h
    cases h

end Text

namespace CSharp

open Text (SmallLetter upperFirst)

variable {className name other : String} {own hidden : List String}

/-! ## Identifiers -/

lemma small_of_mem_keywords : ∀ k ∈ keywords, ∃ c, k.toList.head? = some c ∧ SmallLetter c := by
  have hall : ∀ k ∈ keywords, k.toList.head?.all (fun c => decide (SmallLetter c)) = true ∧
      k.toList.head?.isSome = true := by
    decide +kernel
  intro k hk
  obtain ⟨hsmall, hsome⟩ := hall k hk
  obtain ⟨c, hc⟩ := Option.isSome_iff_exists.1 hsome
  rw [hc] at hsmall
  exact ⟨c, hc, by simpa using hsmall⟩

lemma not_mem_of_mem_keywords : ∀ k ∈ keywords, 'V' ∉ k.toList := by decide +kernel

lemma identifier_of_not_mem (h : name ∉ keywords) : identifier name = name := if_neg h

lemma identifier_of_mem (h : name ∈ keywords) : identifier name = "@" ++ name := if_pos h

/-- A text that starts in upper case is no keyword. -/
lemma not_mem_keywords (h : ∀ d rest, name.toList = d :: rest → ¬ SmallLetter d) :
    name ∉ keywords := by
  intro hmem
  obtain ⟨c, hc, hsmall⟩ := small_of_mem_keywords name hmem
  obtain ⟨rest, hrest⟩ := List.head?_eq_some_iff.1 hc
  exact h c rest hrest hsmall

lemma escaped_not_mem_keywords (name : String) : "@" ++ name ∉ keywords := by
  refine not_mem_keywords fun d rest h => ?_
  rw [String.toList_append] at h
  obtain rfl : '@' = d := (List.cons.inj h).1
  decide

/-- A text that is neither a keyword nor escaped is the identifier of itself only. -/
lemma identifier_eq_iff (hplain : name ∉ keywords) (hfree : ∀ k ∈ keywords, name ≠ "@" ++ k) :
    identifier other = name ↔ other = name := by
  by_cases hother : other ∈ keywords
  · rw [identifier_of_mem hother]
    constructor
    · intro h
      exact absurd h.symm (hfree other hother)
    · rintro rfl
      exact absurd hother hplain
  · rw [identifier_of_not_mem hother]

/-- Two names make one identifier exactly if one is a keyword and the other its escaped form. -/
lemma identifier_eq_identifier (h : identifier name = identifier other) : name = other ∨
    name ∈ keywords ∧ other = "@" ++ name ∨ other ∈ keywords ∧ name = "@" ++ other := by
  by_cases hname : name ∈ keywords
  · by_cases hother : other ∈ keywords
    · rw [identifier_of_mem hname, identifier_of_mem hother, String.append_right_inj] at h
      exact Or.inl h
    · rw [identifier_of_mem hname, identifier_of_not_mem hother] at h
      exact Or.inr (Or.inl ⟨hname, h.symm⟩)
  · by_cases hother : other ∈ keywords
    · rw [identifier_of_not_mem hname, identifier_of_mem hother] at h
      exact Or.inr (Or.inr ⟨hother, h⟩)
    · rw [identifier_of_not_mem hname, identifier_of_not_mem hother] at h
      exact Or.inl h

/-! ## Properties -/

/-- The property of a field of this name. -/
def propertyOf (className name : String) : String :=
  if upperFirst name = name ∨ upperFirst name = className then upperFirst name ++ "Value"
  else upperFirst name

lemma propertyOf_of_met (h : upperFirst name = name ∨ upperFirst name = className) :
    propertyOf className name = upperFirst name ++ "Value" := if_pos h

lemma propertyOf_of_ne (h : upperFirst name ≠ name) (h' : upperFirst name ≠ className) :
    propertyOf className name = upperFirst name := if_neg (not_or.2 ⟨h, h'⟩)

/-- **A property is never escaped**: it is no keyword and no keyword with the sign before it. -/
lemma propertyOf_free (className name : String) :
    propertyOf className name ∉ keywords ∧ ∀ k ∈ keywords, propertyOf className name ≠ "@" ++ k := by
  rw [propertyOf]
  split
  · have hV : 'V' ∈ (upperFirst name ++ "Value").toList := by simp
    refine ⟨fun hmem => not_mem_of_mem_keywords _ hmem hV, fun k hk heq => ?_⟩
    rw [heq, String.toList_append] at hV
    rcases List.mem_append.1 hV with hsign | hkeyword
    · simp at hsign
    · exact not_mem_of_mem_keywords k hk hkeyword
  · rename_i hchanged
    refine ⟨not_mem_keywords fun d rest => Text.not_small_upperFirst, fun k hk heq => ?_⟩
    have hsign : (upperFirst name).toList = '@' :: k.toList := by
      rw [heq, String.toList_append]
      rfl
    exact hchanged (Or.inl (Text.upperFirst_of_at hsign))

lemma propertyName_eq {c : ClassDef} {v : InstanceVariable} (h : v.name = .text name) :
    propertyName c v = .ok (propertyOf c.name name) := by
  have hraw : (if upperFirst name = name || upperFirst name = c.name then
      upperFirst name ++ "Value" else upperFirst name) = propertyOf c.name name := by
    simp [propertyOf]
  rw [propertyName, h]
  change Except.ok (identifier (if upperFirst name = name || upperFirst name = c.name then
    upperFirst name ++ "Value" else upperFirst name)) = _
  rw [hraw, identifier_of_not_mem (propertyOf_free c.name name).1]

lemma append_ne (s : String) : s ++ "Value" ≠ s := by
  intro h
  have hlength := congrArg String.length h
  rw [String.length_append] at hlength
  have hvalue : "Value".length = 5 := rfl
  omega

/-- **Two members of a class have the same name.**  These are the ways: a field is called like the
class; a keyword meets a field that is called like its escaped form; a property meets another field;
two properties are the same; or a property that got a suffix meets what is there with it. -/
inductive Clash (className : String) (own hidden : List String) : Prop where
  | ofClass (field : className ∈ own)
  | escaped (name : String) (keyword : name ∈ keywords) (field : name ∈ own)
      (other : "@" ++ name ∈ own)
  | ofField (name : String) (mem : name ∈ hidden) (changed : upperFirst name ≠ name)
      (other : upperFirst name ∈ own)
  | twins (name name' : String) (mem : name ∈ hidden) (mem' : name' ∈ hidden)
      (differ : name ≠ name') (same : upperFirst name = upperFirst name')
  | suffixed (name : String) (mem : name ∈ hidden)
      (suffix : upperFirst name = name ∨ upperFirst name = className)
      (met : upperFirst name ++ "Value" = className ∨ upperFirst name ++ "Value" ∈ own ∨
        upperFirst name ++ "Value" ∈ hidden.map upperFirst)

/-- The names of the members of a class, and its own. -/
def members (className : String) (own hidden : List String) : List String :=
  className :: (own.map identifier ++ hidden.map (propertyOf className))

lemma nodup_members : (members className own hidden).Nodup ↔
    className ∉ own.map identifier ∧ className ∉ hidden.map (propertyOf className) ∧
      (own.map identifier).Nodup ∧ (hidden.map (propertyOf className)).Nodup ∧
      ∀ name ∈ hidden, propertyOf className name ∉ own.map identifier := by
  rw [members, List.nodup_cons, List.mem_append, not_or, List.nodup_append]
  constructor
  · rintro ⟨⟨hfields, hproperties⟩, hown, hhidden, hapart⟩
    refine ⟨hfields, hproperties, hown, hhidden, fun name hname hmem => ?_⟩
    exact hapart _ hmem _ (List.mem_map_of_mem hname) rfl
  · rintro ⟨hfields, hproperties, hown, hhidden, hapart⟩
    refine ⟨⟨hfields, hproperties⟩, hown, hhidden, fun a ha b hb hab => ?_⟩
    obtain ⟨name, hname, rfl⟩ := List.mem_map.1 hb
    exact hapart name hname (hab ▸ ha)

/-- A name that is never escaped is a field's identifier exactly if it is a field's name. -/
lemma mem_map_identifier (hfree : name ∉ keywords ∧ ∀ k ∈ keywords, name ≠ "@" ++ k) :
    name ∈ own.map identifier ↔ name ∈ own := by
  simp only [List.mem_map, identifier_eq_iff hfree.1 hfree.2, exists_eq_right]

/-- **Names that clash leave two members with one name.** -/
lemma Clash.not_nodup_members (h : Clash className own hidden) (hsub : hidden ⊆ own)
    (hclass : className ∉ keywords ∧ ∀ k ∈ keywords, className ≠ "@" ++ k) :
    ¬ (members className own hidden).Nodup := by
  rw [nodup_members, mem_map_identifier hclass]
  simp only [mem_map_identifier (propertyOf_free className _)]
  rintro ⟨hfield, hproperty, hfields, hproperties, hapart⟩
  -- A property is another name than the class and the fields, so it is the only one of its kind.
  have hsame : ∀ a ∈ hidden, ∀ b ∈ hidden, propertyOf className a = propertyOf className b →
      a = b := fun a ha b hb => List.inj_on_of_nodup_map hproperties ha hb
  have hne : ∀ a ∈ hidden, propertyOf className a ≠ className :=
    fun a ha heq => hproperty (List.mem_map.2 ⟨a, ha, heq⟩)
  cases h with
  | ofClass field => exact hfield field
  | escaped name keyword field other =>
      have heq := List.inj_on_of_nodup_map hfields field other (by
        rw [identifier_of_mem keyword, identifier_of_not_mem (escaped_not_mem_keywords name)])
      have hlength := congrArg String.length heq
      rw [String.length_append] at hlength
      have hsign : "@".length = 1 := rfl
      omega
  | ofField name mem changed other =>
      have hother : upperFirst name ≠ className := fun heq => hfield (heq ▸ other)
      exact hapart name mem (propertyOf_of_ne changed hother ▸ other)
  | twins name name' mem mem' differ same =>
      by_cases hclassName : upperFirst name = className
      · refine differ (hsame name mem name' mem' ?_)
        rw [propertyOf_of_met (Or.inr hclassName), propertyOf_of_met (Or.inr (same ▸ hclassName)),
          same]
      · by_cases hname : upperFirst name = name
        · have hname' : upperFirst name' ≠ name' := by rw [← same, hname]; exact differ
          refine hapart name' mem' ?_
          rw [propertyOf_of_ne hname' (same ▸ hclassName), ← same, hname]
          exact hsub mem
        · by_cases hname' : upperFirst name' = name'
          · refine hapart name mem ?_
            rw [propertyOf_of_ne hname hclassName, same, hname']
            exact hsub mem'
          · refine differ (hsame name mem name' mem' ?_)
            rw [propertyOf_of_ne hname hclassName, propertyOf_of_ne hname' (same ▸ hclassName),
              same]
  | suffixed name mem suffix met =>
      have hproperty := propertyOf_of_met suffix
      rcases met with heq | hother | hother
      · exact hne name mem (hproperty.trans heq)
      · exact hapart name mem (hproperty ▸ hother)
      · obtain ⟨name', mem', heq⟩ := List.mem_map.1 hother
        by_cases hname' : upperFirst name' = name'
        · refine hapart name mem ?_
          rw [hproperty, ← heq, hname']
          exact hsub mem'
        · by_cases hclassName : upperFirst name' = className
          · exact hne name mem (by rw [hproperty, ← heq, hclassName])
          · have hboth := hsame name mem name' mem'
              (by rw [hproperty, propertyOf_of_ne hname' hclassName, heq])
            rw [← hboth] at heq
            exact append_ne (upperFirst name) heq.symm

/-- **The members of a class are different exactly if no two names clash.** -/
theorem nodup_members_iff (hclass : className ∉ keywords ∧ ∀ k ∈ keywords, className ≠ "@" ++ k)
    (hown : own.Nodup) (hhidden : hidden.Nodup) (hsub : hidden ⊆ own) :
    (members className own hidden).Nodup ↔ ¬ Clash className own hidden := by
  refine ⟨fun h hclash => hclash.not_nodup_members hsub hclass h, fun hclear => ?_⟩
  rw [nodup_members, mem_map_identifier hclass, List.nodup_map_iff_inj_on hown,
    List.nodup_map_iff_inj_on hhidden]
  simp only [mem_map_identifier (propertyOf_free className _)]
  refine ⟨fun h => hclear (.ofClass h), fun h => ?_, fun a ha b hb h => ?_,
    fun a ha b hb h => ?_, fun a ha h => ?_⟩
  · obtain ⟨a, ha, heq⟩ := List.mem_map.1 h
    rw [propertyOf] at heq
    split at heq
    · rename_i hmet
      exact hclear (.suffixed a ha hmet (Or.inl heq))
    · rename_i hchanged
      exact hchanged (Or.inr heq)
  · rcases identifier_eq_identifier h with heq | ⟨hkeyword, rfl⟩ | ⟨hkeyword, rfl⟩
    · exact heq
    · exact absurd (.escaped a hkeyword ha hb) hclear
    · exact absurd (.escaped b hkeyword hb ha) hclear
  · by_contra hdiffer
    have hcapitals : upperFirst a ≠ upperFirst b := fun hsame =>
      hclear (.twins a b ha hb hdiffer hsame)
    rw [propertyOf, propertyOf] at h
    split at h
    · rename_i hmet
      split at h
      · exact hcapitals ((String.append_left_inj _).1 h)
      · exact hclear (.suffixed a ha hmet (Or.inr (Or.inr (h ▸ List.mem_map_of_mem hb))))
    · split at h
      · rename_i hmet
        exact hclear (.suffixed b hb hmet (Or.inr (Or.inr (h ▸ List.mem_map_of_mem ha))))
      · exact hcapitals h
  · rw [propertyOf] at h
    split at h
    · rename_i hmet
      exact hclear (.suffixed a ha hmet (Or.inr (Or.inl h)))
    · rename_i hchanged
      exact hclear (.ofField a ha (fun heq => hchanged (Or.inl heq)) h)

end CSharp

/-! ## Getters and setters -/

namespace Php

/-- The method that reads a field. -/
def getterName (v : InstanceVariable) : Except Failure String :=
  v.name.upperFirst?.map fun name => "get" ++ name

/-- The method that writes a field. -/
def setterName (v : InstanceVariable) : Except Failure String :=
  v.name.upperFirst?.map fun name => "set" ++ name

/-- The getter is the method of this name. -/
lemma getter_eq (v : InstanceVariable) : getter v = do
    let type ← Language.php.variableType v
    let name ← getterName v
    return member ("public function " ++ name ++ "(): " ++ type)
      ["return $this->" ++ v.name.display ++ ";"] := by
  rw [getter, getterName]
  cases v.name.upperFirst? with
  | error e => rfl
  | ok name =>
      have happend : "public function " ++ ("get" ++ name) = "public function get" ++ name := by
        rw [← String.append_assoc]
        rfl
      simp only [Except.map, bind, Except.bind, happend]

/-- The setter is the method of this name. -/
lemma setter_eq (v : InstanceVariable) : setter v = do
    let type ← Language.php.variableType v
    let name ← setterName v
    return member ("public function " ++ name ++ "(" ++ type ++ " $" ++ v.name.display ++ "): void")
      [store v] := by
  rw [setter, setterName]
  cases v.name.upperFirst? with
  | error e => rfl
  | ok name =>
      have happend : "public function " ++ ("set" ++ name) = "public function set" ++ name := by
        rw [← String.append_assoc]
        rfl
      simp only [Except.map, bind, Except.bind, happend]

/-- A getter is no setter, so methods are different if the names in upper case are. -/
lemma nodup_methods_iff (capitals : List String) :
    (capitals.map ("get" ++ ·) ++ capitals.map ("set" ++ ·)).Nodup ↔ capitals.Nodup := by
  have hget : Function.Injective ("get" ++ · : String → String) :=
    fun a b => (String.append_right_inj "get").1
  have hset : Function.Injective ("set" ++ · : String → String) :=
    fun a b => (String.append_right_inj "set").1
  rw [List.nodup_append, List.nodup_map_iff hget, List.nodup_map_iff hset]
  constructor
  · intro h
    exact h.1
  · intro h
    refine ⟨h, h, fun a ha b hb hab => ?_⟩
    obtain ⟨name, -, rfl⟩ := List.mem_map.1 ha
    obtain ⟨other, -, rfl⟩ := List.mem_map.1 hb
    have hletters := congrArg String.toList hab
    rw [String.toList_append, String.toList_append] at hletters
    exact absurd (List.cons.inj hletters).1 (by decide)

end Php

/-! ## Models -/

namespace ClassModel

variable {doc : Document} {home : Value} {registry : TypeRegistry}
  {accessibility : Accessibility} {m : ClassModel} {c : ClassDef}

/-- The variables of a class have different texts as their names. -/
lemma names_instanceVariables (hdoc : doc.TextKeyed)
    (h : ofDocument doc home registry accessibility = .ok m) (hc : c ∈ m.classes) :
    (∀ v ∈ c.instanceVariables, v.name = .text v.name.display) ∧
      (c.instanceVariables.map (·.name.display)).Nodup := by
  obtain ⟨schemas, components, -, hblueprint, hall⟩ := blueprint_of_ofDocument hdoc h
  obtain ⟨d, hd, _, hrealizes⟩ := forall₂_right hall hc
  obtain ⟨entry, -, hdescribes, -⟩ := forall₂_right hblueprint.described hd
  have htexts : ∀ v ∈ c.instanceVariables, v.name = .text v.name.display := by
    intro v hv
    obtain ⟨⟨t, ht⟩, -⟩ := hrealizes.assembled.isDiscriminator_iff hdescribes.textKeys hv
    rw [ht]
    rfl
  refine ⟨htexts, ?_⟩
  have hnodup := hrealizes.assembled.nodup_name hdescribes.textKeys
  rw [List.map_congr_left htexts] at hnodup
  refine List.Nodup.of_map Scalar.text ?_
  rwa [List.map_map]

/-- A class name is no keyword, nor one with the sign before it. -/
lemma className_free (h : ofDocument doc home registry accessibility = .ok m)
    (hc : c ∈ m.classes) :
    c.name ∉ CSharp.keywords ∧ ∀ k ∈ CSharp.keywords, c.name ≠ "@" ++ k := by
  obtain ⟨key, hkey⟩ := (names_of_mem h hc).1
  rw [hkey]
  refine ⟨CSharp.not_mem_keywords fun d rest hd => (Text.pascalCase_cons hd).1, ?_⟩
  intro k hk heq
  have hsign : (Text.pascalCase key).toList = '@' :: k.toList := by
    rw [heq, String.toList_append]
    rfl
  exact (Text.pascalCase_cons hsign).2 rfl

/-- The names of the members of a class, made from those of its private variables. -/
lemma traverse_memberNames (hdoc : doc.TextKeyed)
    (h : ofDocument doc home registry accessibility = .ok m) (hc : c ∈ m.classes) :
    traverse (CSharp.propertyName c) c.hiddenVariables =
        .ok ((c.hiddenVariables.map (·.name.display)).map (CSharp.propertyOf c.name)) ∧
      traverse Php.getterName c.hiddenVariables =
        .ok (((c.hiddenVariables.map (·.name.display)).map Text.upperFirst).map ("get" ++ ·)) ∧
      traverse Php.setterName c.hiddenVariables =
        .ok (((c.hiddenVariables.map (·.name.display)).map Text.upperFirst).map ("set" ++ ·)) := by
  have htexts : ∀ v ∈ c.hiddenVariables, v.name = .text v.name.display := fun v hv =>
    (names_instanceVariables hdoc h hc).1 v
      (List.mem_filter.1 (ClassDef.mem_ownVariables_of_hidden hv)).1
  have hupper : ∀ v ∈ c.hiddenVariables,
      v.name.upperFirst? = .ok (Text.upperFirst v.name.display) := by
    intro v hv
    rw [htexts v hv]
    rfl
  simp only [List.map_map]
  refine ⟨traverse_eq_map fun v hv => CSharp.propertyName_eq (htexts v hv),
    traverse_eq_map fun v hv => ?_, traverse_eq_map fun v hv => ?_⟩
  · rw [Php.getterName, hupper v hv]
    rfl
  · rw [Php.setterName, hupper v hv]
    rfl

/-- **When the members of a class are declared once.**  In C# the class, its fields and its
properties have different names exactly if the names of the variables do not clash; in PHP the
getters and setters do exactly if the names of the private variables differ in upper case. -/
theorem nodup_members_of_mem (hdoc : doc.TextKeyed)
    (h : ofDocument doc home registry accessibility = .ok m) (hc : c ∈ m.classes) :
    ∃ properties getters setters,
      traverse (CSharp.propertyName c) c.hiddenVariables = .ok properties ∧
      traverse Php.getterName c.hiddenVariables = .ok getters ∧
      traverse Php.setterName c.hiddenVariables = .ok setters ∧
      ((c.name :: (c.ownVariables.map CSharp.fieldName ++ properties)).Nodup ↔
        ¬ CSharp.Clash c.name (c.ownVariables.map (·.name.display))
          (c.hiddenVariables.map (·.name.display))) ∧
      ((getters ++ setters).Nodup ↔
        ((c.hiddenVariables.map (·.name.display)).map Text.upperFirst).Nodup) := by
  obtain ⟨hproperties, hgetters, hsetters⟩ := traverse_memberNames hdoc h hc
  obtain ⟨-, hnodup⟩ := names_instanceVariables hdoc h hc
  have hownSub : c.ownVariables.Sublist c.instanceVariables := List.filter_sublist
  have hhiddenSub : c.hiddenVariables.Sublist c.ownVariables := List.filter_sublist
  refine ⟨_, _, _, hproperties, hgetters, hsetters, ?_, Php.nodup_methods_iff _⟩
  rw [← CSharp.nodup_members_iff (className_free h hc) (hnodup.sublist (hownSub.map _))
    (hnodup.sublist ((hhiddenSub.trans hownSub).map _)) (hhiddenSub.map _).subset,
    CSharp.members, List.map_map (l := c.ownVariables)]
  rfl

/-! ## Two letters -/

/-- A component `foo` with private text properties of the given names. -/
def fooWith (names : List String) : Entries Scalar Mapping := [
  (.text "foo", [(.text "properties", .mapping (names.map fun name =>
    (.text name, .mapping [(.text "type", .text "string")])))])]

/-- The class of `foo`, by the names of its members. -/
lemma exists_foo {names : List String}
    (h : (ofDocument (.ofSchemas (fooWith names)) (.text "App") {} .owner).toOption.map
      (fun m => m.classes.map fun c => (c.name, c.ownVariables.map (·.name.display),
        c.hiddenVariables.map (·.name.display))) = some [("Foo", names, names)]) :
    ∃ m c, ofDocument (.ofSchemas (fooWith names)) (.text "App") {} .owner = .ok m ∧
      c ∈ m.classes ∧ c.name = "Foo" ∧ c.ownVariables.map (·.name.display) = names ∧
      c.hiddenVariables.map (·.name.display) = names := by
  obtain ⟨m, hm, hclasses⟩ := exists_ok_of_toOption h
  obtain ⟨c, rest, hcons, hc, -⟩ := List.map_eq_cons_iff.1 hclasses
  obtain ⟨hname, hnames⟩ := Prod.mk.inj hc
  obtain ⟨hown, hhidden⟩ := Prod.mk.inj hnames
  exact ⟨m, c, hm, hcons ▸ List.mem_cons_self, hname, hown, hhidden⟩

/-- A field that is called like the class in upper case, and one that is a keyword. -/
theorem nodup_members_of_foo :
    (Document.ofSchemas (fooWith ["foo", "class", "id"])).TextKeyed ∧
    ∃ m c, ofDocument (.ofSchemas (fooWith ["foo", "class", "id"])) (.text "App") {} .owner = .ok m ∧
      c ∈ m.classes ∧ c.name = "Foo" ∧
      c.ownVariables.map (·.name.display) = ["foo", "class", "id"] ∧
      ∃ properties getters setters,
        traverse (CSharp.propertyName c) c.hiddenVariables = .ok properties ∧
        traverse Php.getterName c.hiddenVariables = .ok getters ∧
        traverse Php.setterName c.hiddenVariables = .ok setters ∧
        ((c.name :: (c.ownVariables.map CSharp.fieldName ++ properties)).Nodup ↔
          ¬ CSharp.Clash c.name (c.ownVariables.map (·.name.display))
            (c.hiddenVariables.map (·.name.display))) ∧
        ((getters ++ setters).Nodup ↔
          ((c.hiddenVariables.map (·.name.display)).map Text.upperFirst).Nodup) := by
  have hdoc : (Document.ofSchemas (fooWith ["foo", "class", "id"])).TextKeyed := by decide
  obtain ⟨m, c, hm, hc, hname, hown, -⟩ := @exists_foo ["foo", "class", "id"] (by decide +kernel)
  exact ⟨hdoc, m, c, hm, hc, hname, hown, nodup_members_of_mem hdoc hm hc⟩

/-- **Two properties that differ in the case of one letter give two members of one name**: the
property of the one is the field of the other, and both have the same getter and setter. -/
theorem members_of_letters :
    (Document.ofSchemas (fooWith ["a", "A"])).TextKeyed ∧
    ∃ m c, ofDocument (.ofSchemas (fooWith ["a", "A"])) (.text "App") {} .owner = .ok m ∧
      c ∈ m.classes ∧
      (∃ properties, traverse (CSharp.propertyName c) c.hiddenVariables = .ok properties ∧
        ¬ (c.name :: (c.ownVariables.map CSharp.fieldName ++ properties)).Nodup) ∧
      ∃ getters setters, traverse Php.getterName c.hiddenVariables = .ok getters ∧
        traverse Php.setterName c.hiddenVariables = .ok setters ∧
        ¬ (getters ++ setters).Nodup := by
  have hdoc : (Document.ofSchemas (fooWith ["a", "A"])).TextKeyed := by decide
  obtain ⟨m, c, hm, hc, hname, hown, hhidden⟩ := @exists_foo ["a", "A"] (by decide +kernel)
  obtain ⟨hproperties, hgetters, hsetters⟩ := traverse_memberNames hdoc hm hc
  have hfields : c.ownVariables.map CSharp.fieldName = ["a", "A"].map CSharp.identifier := by
    rw [← hown, List.map_map]
    rfl
  rw [hhidden, hname] at hproperties
  rw [hhidden] at hgetters hsetters
  refine ⟨hdoc, m, c, hm, hc, ⟨_, hname ▸ hproperties, ?_⟩, _, _, hgetters, hsetters, by decide⟩
  rw [hname, hfields]
  decide

end ClassModel

end SchemaClasses
