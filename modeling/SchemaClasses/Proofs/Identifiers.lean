import SchemaClasses.Proofs.ClassNames
import SchemaClasses.Proofs.Evaluation
import SchemaClasses.Proofs.Parameters

/-!
# When names are identifiers

Classes and their members are called after the keys of the document, and a key may be any text.  A
class name consists of words only, so the key of a component may hold separators; but nothing keeps
it from beginning with a digit.  The name of a property is written as it is, except for the case of
its first character, so it must be an identifier itself.  Besides, a change of case may give a
combining mark, which is no part of an identifier.

These are all the reasons why a name is none: `isIdentifier_pascalCase_iff` says it of class names,
`KeepsStarts.isSigned_iff` of a changed name, and `identifiers_of_ofDocument` of a whole class in
both languages.
-/

namespace SchemaClasses

/-! ## Identifiers -/

namespace Text

/-- A letter, a digit or an underscore. -/
def isNameChar (c : Char) : Bool := isAlphanumeric c || c == '_'

/-- Letters, digits and underscores, at least one of them, and no digit at the beginning. -/
def isIdentifier : List Char → Bool
  | [] => false
  | c :: rest => !isDigit c && (c :: rest).all isNameChar

/-- The signs that stand before names: that of a variable, and that of an escaped keyword. -/
def signs : List Char := ['$', '@']

/-- An identifier, perhaps with a sign before it. -/
def isSigned : List Char → Bool
  | [] => false
  | c :: rest => isIdentifier (c :: rest) || signs.contains c && isIdentifier rest

/-- Whether a change of case gives the first character of a name a combining mark. -/
def Marked (f : Char → List Char) (name : List Char) : Prop :=
  ∃ c, name.head? = some c ∧ ∃ d ∈ f c, isCombining d = true

instance (f : Char → List Char) (name : List Char) : Decidable (Marked f name) :=
  decidable_of_iff ((name.head?.any fun c => (f c).any isCombining) = true) (by
    simp only [Marked, Option.any_eq_true, List.any_eq_true])

/-- A character at the beginning of an identifier. -/
def IsStart (c : Char) : Prop := isLetter c = true ∨ c = '_'

variable {f : Char → List Char} {c d : Char} {name rest tail : List Char}

lemma isNameChar_of_isLetter (h : isLetter c = true) : isNameChar c = true := by
  simp [isNameChar, isAlphanumeric, h]

lemma isNameChar_of_isStart (h : IsStart c) : isNameChar c = true := by
  rcases h with hletter | rfl
  · exact isNameChar_of_isLetter hletter
  · simp [isNameChar]

lemma isNameChar_of_isCombining (h : isCombining c = true) : isNameChar c = false := by
  have hunder : isCombining '_' = false := by decide
  rw [isNameChar, isAlphanumeric_of_isCombining h, Bool.false_or, beq_eq_false_iff_ne]
  rintro rfl
  rw [hunder] at h
  cases h

lemma isIdentifier_cons_iff :
    isIdentifier (c :: rest) = true ↔ IsStart c ∧ rest.all isNameChar = true := by
  have hunder : isDigit '_' = false := by decide
  rw [isIdentifier, Bool.and_eq_true, List.all_cons, Bool.and_eq_true, ← and_assoc, isNameChar,
    isAlphanumeric, IsStart]
  refine and_congr_left fun _ => ⟨fun ⟨hdigit, hname⟩ => ?_, ?_⟩
  · have hdigit : isDigit c = false := by simpa using hdigit
    simpa [hdigit] using hname
  · rintro (hletter | rfl)
    · simp [isDigit_of_isLetter hletter, hletter]
    · simp [hunder]

lemma forall_mem_signs {p : Char → Prop} : (∀ c ∈ signs, p c) ↔ p '$' ∧ p '@' := by
  rw [signs, List.forall_mem_cons, List.forall_mem_singleton]

lemma not_isStart_of_mem_signs : ∀ c ∈ signs, ¬ IsStart c := by
  simp only [forall_mem_signs, IsStart]
  decide

lemma isSigned_cons_iff : isSigned (c :: rest) = true ↔
    IsStart c ∧ rest.all isNameChar = true ∨ c ∈ signs ∧ isIdentifier rest = true := by
  rw [isSigned, Bool.or_eq_true, isIdentifier_cons_iff, Bool.and_eq_true, List.contains_iff_mem]

lemma isSigned_of_isIdentifier (h : isIdentifier name = true) : isSigned name = true := by
  cases name with
  | nil => cases h
  | cons c rest => rw [isSigned, h, Bool.true_or]

lemma isSigned_sign_iff (h : c ∈ signs) :
    isSigned (c :: rest) = true ↔ isIdentifier rest = true := by
  simp [isSigned_cons_iff, h, not_isStart_of_mem_signs c h]

/-- What begins as an identifier has no sign before it. -/
lemma isSigned_start_iff (h : IsStart c) :
    isSigned (c :: rest) = true ↔ rest.all isNameChar = true := by
  rw [isSigned_cons_iff, and_iff_right h]
  exact or_iff_left fun hsign => not_isStart_of_mem_signs c hsign.1 h

/-! ## Changes of case -/

/-- A change of case that keeps the beginning of an identifier, perhaps with letters and combining
marks behind it, and does not change a sign. -/
structure KeepsStarts (f : Char → List Char) : Prop where
  start : ∀ c, IsStart c → ∃ d rest, f c = d :: rest ∧ IsStart d ∧
    ∀ e ∈ rest, isLetter e = true ∨ isCombining e = true
  sign : ∀ c ∈ signs, f c = [c]

lemma keepsStarts_upperChar : KeepsStarts upperChar where
  start c hc := by
    rcases hc with hletter | rfl
    · obtain ⟨d, rest, hupper, hd, -, hrest⟩ := upperChar_of_isLetter hletter
      exact ⟨d, rest, hupper, Or.inl hd, hrest⟩
    · exact ⟨'_', [], rfl, Or.inr rfl, List.forall_mem_nil _⟩
  sign := forall_mem_signs.2 ⟨rfl, rfl⟩

/-- **A letter in lower case** is a letter, in one case with a combining mark behind it. -/
lemma lowerChar_of_isLetter (h : isLetter c = true) : ∃ d rest, lowerChar c = d :: rest ∧
    isLetter d = true ∧ ∀ e ∈ rest, isLetter e = true ∨ isCombining e = true := by
  have hmoved : ∀ r ∈ lowerRuns, r.moves c.toNat = true → ∀ d : Char,
      d.toNat = r.target c.toNat → isLetter d = true := fun r hr hmoves _ hvalue =>
    isLetter_of_moves (List.mem_append_right upperRuns hr) hmoves h hvalue
  by_cases hascii : c.toNat < 128
  · have hlower : lowerChar c = [c.toLower] := if_pos hascii
    refine ⟨_, [], hlower, ?_, List.forall_mem_nil _⟩
    rcases toLower_cases c with ⟨hfirst, hlast, hvalue⟩ | ⟨-, hsame⟩
    · have hmoves : CaseRun.moves ⟨0x41, 0x5a, 1, 32⟩ c.toNat = true :=
        CaseRun.moves_iff.2 ⟨hfirst, hlast, Nat.mod_one _⟩
      exact hmoved _ List.mem_cons_self hmoves _ hvalue
    · rwa [hsame]
  · have hlower : lowerChar c = lowerMap.apply c := if_neg hascii
    rcases lowerMap.apply_cases c with ⟨codes, hcodes, happly⟩ | ⟨r, hr, hmoves, happly⟩ | happly
    · obtain ⟨-, rfl⟩ := Prod.mk.inj (List.mem_singleton.1 hcodes)
      exact ⟨'i', [Char.ofNat 0x307], hlower.trans happly, by decide,
        List.forall_mem_singleton.2 (Or.inr (by decide))⟩
    · exact ⟨_, [], hlower.trans happly, hmoved r hr hmoves _ (toNat_of_moves hr hmoves).1,
        List.forall_mem_nil _⟩
    · exact ⟨c, [], hlower.trans happly, h, List.forall_mem_nil _⟩

lemma keepsStarts_lowerChar : KeepsStarts lowerChar where
  start c hc := by
    rcases hc with hletter | rfl
    · obtain ⟨d, rest, hlower, hd, hrest⟩ := lowerChar_of_isLetter hletter
      exact ⟨d, rest, hlower, Or.inl hd, hrest⟩
    · exact ⟨'_', [], rfl, Or.inr rfl, List.forall_mem_nil _⟩
  sign := forall_mem_signs.2 ⟨rfl, rfl⟩

/-- The marks are all that a change of case can spoil. -/
lemma KeepsStarts.all_iff (hf : KeepsStarts f) (hc : IsStart c) :
    (f c).all isNameChar = true ↔ ¬ Marked f (c :: rest) := by
  obtain ⟨d, others, heq, hd, hothers⟩ := hf.start c hc
  rw [List.all_eq_true, Marked]
  constructor
  · rintro hall ⟨c', hhead, m, hm, hmark⟩
    obtain rfl := Option.some.inj hhead
    have hm := hall m hm
    rw [isNameChar_of_isCombining hmark] at hm
    cases hm
  · intro hmarks e he
    rw [heq, List.mem_cons] at he
    rcases he with rfl | he
    · exact isNameChar_of_isStart hd
    · refine isNameChar_of_isLetter ((hothers e he).resolve_right fun hmark => ?_)
      exact hmarks ⟨c, rfl, e, heq ▸ List.mem_cons_of_mem d he, hmark⟩

/-- An identifier after a change of case, in the middle of a name. -/
lemma KeepsStarts.all_mapFirst_iff (hf : KeepsStarts f) (hname : isIdentifier name = true) :
    (mapFirst f name).all isNameChar = true ↔ ¬ Marked f name := by
  cases name with
  | nil => cases hname
  | cons c rest =>
      obtain ⟨hc, hrest⟩ := isIdentifier_cons_iff.1 hname
      rw [mapFirst_cons, List.all_append, hrest, Bool.and_true, hf.all_iff hc]

/-- **A name is still an identifier after a change of case exactly if that gives no marks.** -/
lemma KeepsStarts.isSigned_iff (hf : KeepsStarts f) (htail : tail.all isNameChar = true)
    (hname : isSigned name = true) :
    isSigned (mapFirst f name ++ tail) = true ↔ ¬ Marked f name := by
  cases name with
  | nil => cases hname
  | cons c rest =>
      rcases isSigned_cons_iff.1 hname with ⟨hc, hrest⟩ | ⟨hc, hrest⟩
      · obtain ⟨d, others, heq, hd, -⟩ := hf.start c hc
        rw [← hf.all_iff hc, mapFirst_cons, heq, List.cons_append, List.cons_append,
          isSigned_start_iff hd, List.all_append, List.all_append, hrest, htail, Bool.and_true,
          Bool.and_true, List.all_cons, isNameChar_of_isStart hd, Bool.true_and]
      · have hunmarked : ¬ Marked f (c :: rest) := by
          rintro ⟨c', hhead, m, hm, hmark⟩
          obtain rfl := Option.some.inj hhead
          rw [hf.sign c hc, List.mem_singleton] at hm
          have hsigns : ∀ s ∈ signs, isCombining s = false := forall_mem_signs.2 ⟨rfl, rfl⟩
          rw [hm, hsigns c hc] at hmark
          cases hmark
        rw [mapFirst_cons, hf.sign c hc, List.singleton_append, List.cons_append,
          isSigned_sign_iff hc]
        refine iff_of_true ?_ hunmarked
        cases rest with
        | nil => cases hrest
        | cons s rest =>
            obtain ⟨hs, hrest⟩ := isIdentifier_cons_iff.1 hrest
            rw [List.cons_append, isIdentifier_cons_iff, List.all_append, hrest, htail]
            exact ⟨hs, rfl⟩

/-! ## Class names -/

/-- A digit is no mark, so only letters at the beginning of a word may give one. -/
lemma isLetter_of_marked {w cs : List Char} (hw : w ∈ words wordKind cs) (hc : w.head? = some c)
    (hmark : ∃ d ∈ upperChar c, isCombining d = true) : isLetter c = true := by
  obtain ⟨c', w', k, rfl, hkind⟩ := kind_of_mem_words hw
  obtain rfl := Option.some.inj hc
  have hc := hkind c' List.mem_cons_self
  cases k with
  | letters => exact wordKind_eq_letters_iff.1 hc
  | digits =>
      obtain ⟨d, hd, hmark⟩ := hmark
      rw [upperChar_of_isDigit (wordKind_eq_digits_iff.1 hc), List.mem_singleton] at hd
      have halphanumeric := isAlphanumeric_of_isCombining hmark
      rw [hd, isAlphanumeric_of_wordKind hc] at halphanumeric
      cases halphanumeric

/-- All characters of a class name are those of names exactly if no word gives marks. -/
lemma all_pascalCase_iff (key : String) : (pascalCase key).toList.all isNameChar = true ↔
    ∀ w ∈ words wordKind key.toList, ¬ Marked upperChar w := by
  have hunder : '_' ∉ (pascalCase key).toList := not_mem_pascalCase (by decide) (by decide) key
  have hchars : (pascalCase key).toList.all isNameChar = true ↔
      ¬ ∃ c ∈ (pascalCase key).toList, isAlphanumeric c = false := by
    simp only [List.all_eq_true, isNameChar, Bool.or_eq_true, beq_iff_eq, not_exists, not_and,
      Bool.not_eq_false]
    refine forall_congr' fun c => imp_congr_right fun hc => or_iff_left ?_
    rintro rfl
    exact hunder hc
  rw [hchars, pascalCase, String.toList_ofList, exists_mark_iff]
  constructor
  · rintro h w hw ⟨c, hc, hmark⟩
    exact h ⟨w, hw, c, hc, isLetter_of_marked hw hc hmark, hmark⟩
  · rintro h ⟨w, hw, c, hc, -, hmark⟩
    exact h w hw ⟨c, hc, hmark⟩

/-- **When a class name is an identifier**: the first word of the key begins with a letter, and no
word gives marks in upper case. -/
theorem isIdentifier_pascalCase_iff (key : String) :
    isIdentifier (pascalCase key).toList = true ↔
      (∃ w ∈ (words wordKind key.toList).head?, ∃ c ∈ w.head?, isLetter c = true) ∧
        ∀ w ∈ words wordKind key.toList, ¬ Marked upperChar w := by
  have hall := all_pascalCase_iff key
  have hname : (pascalCase key).toList =
      (words wordKind key.toList).flatMap (mapFirst upperChar) := by
    rw [pascalCase, String.toList_ofList, joinWords_eq_flatMap]
  cases hwords : words wordKind key.toList with
  | nil =>
      rw [hname, hwords]
      simp [isIdentifier]
  | cons w ws =>
      obtain ⟨c, w', k, rfl, hkind⟩ := kind_of_mem_words (hwords ▸ List.mem_cons_self)
      have hc := hkind c List.mem_cons_self
      obtain ⟨d, others, hupper, hd, -⟩ := upperChar_of_wordKind hc
      have hcons : (pascalCase key).toList =
          d :: (others ++ w' ++ ws.flatMap (mapFirst upperChar)) := by
        rw [hname, hwords, List.flatMap_cons, mapFirst_cons, hupper]
        rfl
      have hfirst : isDigit d = false ↔ isLetter c = true := by
        cases k with
        | letters =>
            exact iff_of_true (isDigit_of_isLetter (wordKind_eq_letters_iff.1 hd))
              (wordKind_eq_letters_iff.1 hc)
        | digits =>
            refine iff_of_false (by rw [wordKind_eq_digits_iff.1 hd]; simp) fun hletter => ?_
            rw [wordKind_eq_letters_iff.2 hletter] at hc
            cases hc
      rw [← hwords, ← hall, hcons, isIdentifier, Bool.and_eq_true, hwords]
      refine and_congr_left fun _ => ?_
      simp [hfirst]

end Text

/-! ## Members -/

open Text (isIdentifier isSigned isNameChar Marked upperChar lowerChar upperFirst lowerFirst)

namespace CSharp

variable {className name : String} {names : List String}

lemma isIdentifier_of_mem_keywords : ∀ k ∈ keywords, isIdentifier k.toList = true := by
  decide +kernel

/-- Escaping a keyword puts a sign before it and nothing else. -/
lemma isSigned_identifier_iff (name : String) :
    isSigned (identifier name).toList = true ↔ isSigned name.toList = true := by
  by_cases hname : name ∈ keywords
  · have hkeyword := isIdentifier_of_mem_keywords name hname
    have hsign : ("@" ++ name).toList = '@' :: name.toList := by
      rw [String.toList_append]
      rfl
    rw [identifier_of_mem hname, hsign, Text.isSigned_sign_iff (by decide)]
    exact iff_of_true hkeyword (Text.isSigned_of_isIdentifier hkeyword)
  · rw [identifier_of_not_mem hname]

lemma isSigned_upperFirst_append {tail : String} (htail : tail.toList.all isNameChar = true)
    (h : isSigned name.toList = true) :
    isSigned (upperFirst name ++ tail).toList = true ↔ ¬ Marked upperChar name.toList := by
  rw [String.toList_append, upperFirst, String.toList_ofList]
  exact Text.keepsStarts_upperChar.isSigned_iff htail h

lemma isSigned_propertyOf_iff (className : String) (h : isSigned name.toList = true) :
    isSigned (propertyOf className name).toList = true ↔ ¬ Marked upperChar name.toList := by
  rw [propertyOf]
  split
  · exact isSigned_upperFirst_append (by decide) h
  · have happend : upperFirst name ++ "" = upperFirst name := String.append_empty
    rw [← happend]
    exact isSigned_upperFirst_append rfl h

/-- A parameter may only be spoilt where it is in lower case. -/
lemma isSigned_unescapedParameter_iff (names : List String) (h : isSigned name.toList = true) :
    isSigned (unescapedParameter names name).toList = true ↔
      (Marked lowerChar name.toList → 1 < (names.map lowerFirst).count (lowerFirst name)) := by
  rw [unescapedParameter]
  split
  · rename_i hshared
    exact iff_of_true h fun _ => hshared
  · rename_i hunshared
    rw [imp_iff_not hunshared, lowerFirst, String.toList_ofList]
    have hlower := Text.keepsStarts_lowerChar.isSigned_iff List.all_nil h
    rwa [List.append_nil] at hlower

end CSharp

namespace Php

variable {v : InstanceVariable} {name : String}

/-- The variable that a field is, and the parameter that is stored in it. -/
def variableName (v : InstanceVariable) : String := "$" ++ v.name.display

lemma append_variableName (v : InstanceVariable) :
    " $" ++ v.name.display = " " ++ variableName v := by
  rw [variableName, ← String.append_assoc]
  rfl

/-- The declaration of a field declares its variable. -/
lemma field_eq (h : v.name = .text name) : field v = (Language.php.variableType v).map fun type =>
    indent ++ v.accessibility.keyword ++ " " ++ type ++ (" " ++ variableName v) ++ ";" := by
  have hdisplay : v.name.display = name := by rw [h]; rfl
  rw [field, ← append_variableName, hdisplay, h]
  cases Language.php.variableType v with
  | error e => rfl
  | ok type => simp only [Except.map, bind, Except.bind, Scalar.shown_text, pure, Except.pure,
      String.append_assoc]

/-- A parameter of the constructor is the variable of its field. -/
lemma parameter_eq (h : v.name = .text name) : parameter v =
    (Language.php.variableType v).map fun type => type ++ (" " ++ variableName v) := by
  have hdisplay : v.name.display = name := by rw [h]; rfl
  rw [parameter, ← append_variableName, hdisplay, h]
  cases Language.php.variableType v with
  | error e => rfl
  | ok type => simp only [Except.map, bind, Except.bind, Scalar.shown_text, pure, Except.pure,
      String.append_assoc]

lemma isSigned_variableName_iff (v : InstanceVariable) :
    isSigned (variableName v).toList = true ↔ isIdentifier v.name.display.toList = true := by
  have hsign : (variableName v).toList = '$' :: v.name.display.toList := by
    rw [variableName, String.toList_append]
    rfl
  rw [hsign, Text.isSigned_sign_iff (by decide)]

/-- A getter or setter of an identifier. -/
lemma isSigned_append_upperFirst {verb : String} (hverb : isIdentifier verb.toList = true)
    (h : isIdentifier name.toList = true) :
    isSigned (verb ++ upperFirst name).toList = true ↔ ¬ Marked upperChar name.toList := by
  rw [← Text.keepsStarts_upperChar.all_mapFirst_iff h, String.toList_append, upperFirst,
    String.toList_ofList]
  cases hchars : verb.toList with
  | nil => rw [hchars] at hverb; cases hverb
  | cons c rest =>
      rw [hchars] at hverb
      obtain ⟨hc, hrest⟩ := Text.isIdentifier_cons_iff.1 hverb
      rw [List.cons_append, Text.isSigned_start_iff hc, List.all_append, hrest, Bool.true_and]

end Php

/-! ## Whole classes -/

namespace ClassModel

variable {doc : Document} {home : Value} {registry : TypeRegistry}
  {accessibility : Accessibility} {m : ClassModel} {c : ClassDef}

/-- A class is called after the component it was made from. -/
lemma name_eq_pascalCase (h : ofDocument doc home registry accessibility = .ok m)
    (hc : c ∈ m.classes) : c.name = Text.pascalCase c.componentKey := by
  obtain ⟨classNames, components, hnames, hall⟩ := exists_built h
  obtain ⟨component, hcomponent, ancestors, -, hbuilt⟩ := forall₂_right hall hc
  have hassembled := Scope.assembled_of_build hbuilt
  rw [hassembled.name, hassembled.componentKey, hnames component hcomponent]

/-- The variables of a class have texts as their names. -/
lemma ownVariables_name (hdoc : doc.TextKeyed)
    (h : ofDocument doc home registry accessibility = .ok m) (hc : c ∈ m.classes) :
    c.ownVariables.map (·.name) = (c.ownVariables.map (·.name.display)).map Scalar.text := by
  rw [List.map_map]
  exact List.map_congr_left fun v hv =>
    (names_instanceVariables hdoc h hc).1 v (List.mem_filter.1 hv).1

/-- The names that a class has in PHP are identifiers exactly if those of its variables are, and
those of its private variables still are in upper case. -/
lemma isSigned_php_iff {own hidden : List InstanceVariable} (hsub : hidden ⊆ own) :
    (∀ name ∈ own.map Php.variableName ++
        (((hidden.map (·.name.display)).map upperFirst).map ("get" ++ ·) ++
          ((hidden.map (·.name.display)).map upperFirst).map ("set" ++ ·)),
        isSigned name.toList = true) ↔
      (∀ v ∈ own, isIdentifier v.name.display.toList = true) ∧
        ∀ v ∈ hidden, ¬ Marked upperChar v.name.display.toList := by
  simp only [List.forall_mem_append, List.forall_mem_map, Php.isSigned_variableName_iff]
  refine and_congr_right fun hown => ?_
  have hmethods : ∀ verb : String, isIdentifier verb.toList = true →
      ((∀ v ∈ hidden, isSigned (verb ++ upperFirst v.name.display).toList = true) ↔
        ∀ v ∈ hidden, ¬ Marked upperChar v.name.display.toList) := fun verb hverb =>
    forall_congr' fun v => imp_congr_right fun hv =>
      Php.isSigned_append_upperFirst hverb (hown v (hsub hv))
  rw [hmethods "get" (by decide), hmethods "set" (by decide), and_self]

/-- The names that a class has in C# are identifiers exactly if those of its variables are, those of
its parameters still are in lower case, and those of its properties in upper case. -/
lemma isSigned_csharp_iff {own hidden : List InstanceVariable} (className : String)
    (hsub : hidden ⊆ own) :
    (∀ name ∈ own.map CSharp.fieldName ++ ((own.map (·.name.display)).map (fun name =>
          CSharp.identifier (CSharp.unescapedParameter (own.map (·.name.display)) name)) ++
        (hidden.map (·.name.display)).map (CSharp.propertyOf className)),
        isSigned name.toList = true) ↔
      (∀ v ∈ own, isSigned v.name.display.toList = true) ∧
        (∀ v ∈ own, Marked lowerChar v.name.display.toList →
          1 < (own.map fun w => lowerFirst w.name.display).count (lowerFirst v.name.display)) ∧
        ∀ v ∈ hidden, ¬ Marked upperChar v.name.display.toList := by
  have hlower : (own.map fun w => lowerFirst w.name.display) =
      (own.map (·.name.display)).map lowerFirst := by
    rw [List.map_map]
    rfl
  simp only [List.forall_mem_append, List.forall_mem_map, CSharp.fieldName,
    CSharp.isSigned_identifier_iff, hlower]
  refine and_congr_right fun hown => and_congr ?_ ?_
  · exact forall_congr' fun v => imp_congr_right fun hv =>
      CSharp.isSigned_unescapedParameter_iff _ (hown v hv)
  · exact forall_congr' fun v => imp_congr_right fun hv =>
      CSharp.isSigned_propertyOf_iff className (hown v (hsub hv))

/-- **When the names of a class are identifiers.**  Its own name is one exactly if the key of its
component begins with a letter word, not counting separators, and no word gives combining marks in
upper case.  All the names of its members in PHP are identifiers exactly if the names of its
variables are, and no private one gives marks in upper case; in C# a sign may stand before the name
of a variable, but none may give marks in lower case either, unless it is kept as a parameter
because another one has the same form in lower case. -/
theorem identifiers_of_ofDocument (hdoc : doc.TextKeyed)
    (h : ofDocument doc home registry accessibility = .ok m) (hc : c ∈ m.classes) :
    (isIdentifier c.name.toList = true ↔
      (∃ w ∈ (Text.words Text.wordKind c.componentKey.toList).head?,
        ∃ letter ∈ w.head?, Text.isLetter letter = true) ∧
      ∀ w ∈ Text.words Text.wordKind c.componentKey.toList, ¬ Marked upperChar w) ∧
    ∃ getters setters parameters properties,
      traverse Php.getterName c.hiddenVariables = .ok getters ∧
      traverse Php.setterName c.hiddenVariables = .ok setters ∧
      CSharp.parameterNames c = .ok parameters ∧
      traverse (CSharp.propertyName c) c.hiddenVariables = .ok properties ∧
      ((∀ name ∈ c.ownVariables.map Php.variableName ++ (getters ++ setters),
          isSigned name.toList = true) ↔
        (∀ v ∈ c.ownVariables, isIdentifier v.name.display.toList = true) ∧
          ∀ v ∈ c.hiddenVariables, ¬ Marked upperChar v.name.display.toList) ∧
      ((∀ name ∈ c.ownVariables.map CSharp.fieldName ++ (parameters ++ properties),
          isSigned name.toList = true) ↔
        (∀ v ∈ c.ownVariables, isSigned v.name.display.toList = true) ∧
          (∀ v ∈ c.ownVariables, Marked lowerChar v.name.display.toList →
            1 < (c.ownVariables.map fun w => lowerFirst w.name.display).count
              (lowerFirst v.name.display)) ∧
          ∀ v ∈ c.hiddenVariables, ¬ Marked upperChar v.name.display.toList) := by
  have hsub : c.hiddenVariables ⊆ c.ownVariables := fun v => ClassDef.mem_ownVariables_of_hidden
  obtain ⟨hproperties, hgetters, hsetters⟩ := traverse_memberNames hdoc h hc
  have hparameters := CSharp.parameterNames_eq (ownVariables_name hdoc h hc)
  refine ⟨?_, _, _, _, _, hgetters, hsetters, hparameters, hproperties, isSigned_php_iff hsub,
    isSigned_csharp_iff c.name hsub⟩
  rw [name_eq_pascalCase h hc]
  exact Text.isIdentifier_pascalCase_iff c.componentKey

/-- Names of three kinds that are identifiers in both languages. -/
theorem identifiers_of_foo :
    (Document.ofSchemas (fooWith ["first_name", "class", "_2"])).TextKeyed ∧
    ∃ m c, ofDocument (.ofSchemas (fooWith ["first_name", "class", "_2"])) (.text "App") {} .owner =
        .ok m ∧ c ∈ m.classes ∧ c.ownVariables.length = 3 ∧
      (∃ getters setters, traverse Php.getterName c.hiddenVariables = .ok getters ∧
        traverse Php.setterName c.hiddenVariables = .ok setters ∧
        ∀ name ∈ c.ownVariables.map Php.variableName ++ (getters ++ setters),
          isSigned name.toList = true) ∧
      ∃ parameters properties, CSharp.parameterNames c = .ok parameters ∧
        traverse (CSharp.propertyName c) c.hiddenVariables = .ok properties ∧
        ∀ name ∈ c.ownVariables.map CSharp.fieldName ++ (parameters ++ properties),
          isSigned name.toList = true := by
  have hdoc : (Document.ofSchemas (fooWith ["first_name", "class", "_2"])).TextKeyed := by decide
  obtain ⟨m, c, hm, hc, -, hown, hhidden⟩ :=
    @exists_foo ["first_name", "class", "_2"] (by decide +kernel)
  have hlength := congrArg List.length hown
  rw [List.length_map] at hlength
  have hnames : ∀ name ∈ ["first_name", "class", "_2"], isIdentifier name.toList = true ∧
      ¬ Marked lowerChar name.toList ∧ ¬ Marked upperChar name.toList := by
    decide +kernel
  have hvariables : ∀ v ∈ c.ownVariables, isIdentifier v.name.display.toList = true ∧
      ¬ Marked lowerChar v.name.display.toList ∧ ¬ Marked upperChar v.name.display.toList :=
    fun v hv => hnames _ (hown ▸ List.mem_map_of_mem hv)
  have hunmarked : ∀ v ∈ c.hiddenVariables, ¬ Marked upperChar v.name.display.toList :=
    fun v hv => (hnames _ (hhidden ▸ List.mem_map_of_mem hv)).2.2
  obtain ⟨-, getters, setters, parameters, properties, hgetters, hsetters, hparameters, hproperties,
    hphp, hcsharp⟩ := identifiers_of_ofDocument hdoc hm hc
  refine ⟨hdoc, m, c, hm, hc, hlength, ⟨getters, setters, hgetters, hsetters,
    hphp.2 ⟨fun v hv => (hvariables v hv).1, hunmarked⟩⟩, parameters, properties, hparameters,
    hproperties, hcsharp.2 ⟨fun v hv => Text.isSigned_of_isIdentifier (hvariables v hv).1,
      fun v hv hmarked => absurd hmarked (hvariables v hv).2.1, hunmarked⟩⟩

/-- A component `3d` with a property `first-name`. -/
def threeDimensional : Document := .ofSchemas [
  (.text "3d", [(.text "properties", .mapping [
    (.text "first-name", .mapping [(.text "type", .text "string")])])])]

/-- **A key that begins with a digit and a property with a hyphen**: the class name, the variable
and its getter and setter are no identifiers, nor are the field, the parameter and the property. -/
theorem names_of_threeDimensional : threeDimensional.TextKeyed ∧
    ∃ m c, ofDocument threeDimensional (.text "App") {} .owner = .ok m ∧ c ∈ m.classes ∧
      isIdentifier c.name.toList = false ∧
      (∃ name ∈ c.ownVariables.map Php.variableName, isSigned name.toList = false) ∧
      (∃ getters, traverse Php.getterName c.hiddenVariables = .ok getters ∧
        ∃ name ∈ getters, isSigned name.toList = false) ∧
      (∃ name ∈ c.ownVariables.map CSharp.fieldName, isSigned name.toList = false) ∧
      (∃ parameters, CSharp.parameterNames c = .ok parameters ∧
        ∃ name ∈ parameters, isSigned name.toList = false) ∧
      ∃ properties, traverse (CSharp.propertyName c) c.hiddenVariables = .ok properties ∧
        ∃ name ∈ properties, isSigned name.toList = false := by
  have hdoc : threeDimensional.TextKeyed := by decide
  have hclasses : (ofDocument threeDimensional (.text "App") {} .owner).toOption.map
      (fun m => m.classes.map fun c => (c.name, c.ownVariables.map (·.name.display),
        c.hiddenVariables.map (·.name.display))) =
      some [("3D", ["first-name"], ["first-name"])] := by
    decide +kernel
  obtain ⟨m, hm, hclasses⟩ := exists_ok_of_toOption hclasses
  obtain ⟨c, rest, hcons, hc, -⟩ := List.map_eq_cons_iff.1 hclasses
  obtain ⟨hname, hnames⟩ := Prod.mk.inj hc
  obtain ⟨hown, hhidden⟩ := Prod.mk.inj hnames
  have hc : c ∈ m.classes := hcons ▸ List.mem_cons_self
  obtain ⟨hproperties, hgetters, -⟩ := traverse_memberNames hdoc hm hc
  have hparameters := CSharp.parameterNames_eq (ownVariables_name hdoc hm hc)
  have hvariables : c.ownVariables.map Php.variableName = ["first-name"].map ("$" ++ ·) := by
    rw [← hown, List.map_map]
    rfl
  have hfields : c.ownVariables.map CSharp.fieldName = ["first-name"].map CSharp.identifier := by
    rw [← hown, List.map_map]
    rfl
  rw [hhidden, hname] at hproperties
  rw [hhidden] at hgetters
  rw [hown] at hparameters
  refine ⟨hdoc, m, c, hm, hc, ?_, ?_, ⟨_, hgetters, by decide⟩, ?_, ⟨_, hparameters, by decide⟩, _,
    hproperties, by decide⟩
  · rw [hname]
    decide
  · rw [hvariables]
    decide
  · rw [hfields]
    decide

end ClassModel

end SchemaClasses
