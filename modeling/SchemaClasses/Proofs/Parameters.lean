import SchemaClasses.Proofs.CharacterSets
import SchemaClasses.Proofs.MemberNames

/-!
# Parameters of a constructor

The constructor that takes all fields has a parameter for each of them.  A parameter is called like
its field, but in lower case, as is the custom; only where two fields would then have one parameter
do they keep their own names.  So a name that was kept stands beside names that were changed, and
what has to be shown is that the two never meet.

If they met, the name that was kept would be in lower case already, as lower case changes nothing
the second time (`lowerFirst_lowerFirst`).  Then it would be its own form in lower case, and share it
with the changed name, which would not have been changed (`nodup_map_unshared`).  The fact about
letters is read off the tables: nothing that a run of characters moves to is moved again
(`moves_target`).
-/

namespace SchemaClasses

/-! ## Lower case -/

namespace Text

namespace CaseRun

variable {r r' : CaseRun} {n : Nat}

/-- Whether a run moves nothing that another one gives: the two lie apart, or this one moves every
second character and the other one gives those between. -/
def misses (r' r : CaseRun) : Bool :=
  Nat.blt (r.target r.last) r'.first || Nat.blt r'.last (r.target r.first) ||
    (r.step == 2 || r.first == r.last) && r'.step == 2 && (r.target r.first + r'.first) % 2 == 1

lemma moves_target (h : r'.misses r = true) (hfirst : 0 ≤ r.first + r.shift)
    (hmoves : r.moves n = true) : r'.moves (r.target n) = false := by
  simp only [misses, target, Bool.or_eq_true, Bool.and_eq_true, Nat.blt_eq, beq_iff_eq] at h
  obtain ⟨hn, hn', hstep⟩ := moves_iff.1 hmoves
  rw [Bool.eq_false_iff, ne_eq, moves_iff, target]
  rintro ⟨hm, hm', hstep'⟩
  rcases h with (hbelow | habove) | ⟨⟨hsecond | hsingle, hsecond'⟩, hodd⟩
  · omega
  · omega
  · rw [hsecond] at hstep
    rw [hsecond'] at hstep'
    omega
  · rw [hsecond'] at hstep'
    omega

end CaseRun

lemma misses_lowerRuns : (lowerRuns.all fun r' => lowerRuns.all fun r => r'.misses r) = true := by
  decide +kernel

/-- What a run gives is a character behind the signs and capitals, and not the one that becomes
several. -/
lemma bounds_lowerRuns : ∀ r ∈ lowerRuns, ('a'.toNat : Int) ≤ r.first + r.shift ∧
    (r.last + r.shift < 0x130 ∨ (0x130 : Int) < r.first + r.shift ∧ r.last + r.shift < 0xD800 ∨
      (0xE000 : Int) ≤ r.first + r.shift ∧ r.last + r.shift < 0x110000) := by
  decide +kernel

lemma toLower_cases (c : Char) :
    ('A'.toNat ≤ c.toNat ∧ c.toNat ≤ 'Z'.toNat ∧ c.toLower.toNat = c.toNat + 32) ∨
      (¬ ('A'.toNat ≤ c.toNat ∧ c.toNat ≤ 'Z'.toNat) ∧ c.toLower = c) := by
  by_cases hupper : c.val ≥ 'A'.val ∧ c.val ≤ 'Z'.val
  · have hvalue : c.toLower.val = c.val + ('a'.val - 'A'.val) := by
      change (dite _ _ _ : Char).val = _
      rw [dif_pos hupper]
    have hdistance : ('a'.val - 'A'.val).toNat = 32 := by decide
    have hlast : c.val.toNat ≤ 90 := hupper.2
    refine Or.inl ⟨hupper.1, hupper.2, ?_⟩
    rw [Char.toNat, Char.toNat, hvalue, UInt32.toNat_add, hdistance]
    omega
  · exact Or.inr ⟨hupper, dif_neg hupper⟩

/-- A character that no run moves and that does not become several stays as it is. -/
lemma lowerChar_of_unmoved {c : Char} (hone : c.toNat ≠ 0x130)
    (hruns : ∀ r ∈ lowerRuns, r.moves c.toNat = false) : lowerChar c = [c] := by
  have hletters : ¬ ('A'.toNat ≤ c.toNat ∧ c.toNat ≤ 'Z'.toNat) := by
    intro hletter
    have hmoves : CaseRun.moves ⟨0x41, 0x5a, 1, 32⟩ c.toNat = true :=
      CaseRun.moves_iff.2 ⟨hletter.1, hletter.2, Nat.mod_one _⟩
    rw [hruns _ List.mem_cons_self] at hmoves
    exact Bool.noConfusion hmoves
  rw [lowerChar]
  split
  · rw [((toLower_cases c).resolve_left fun h => hletters ⟨h.1, h.2.1⟩).2]
  · rcases lowerMap.apply_cases c with ⟨codes, hcodes, -⟩ | ⟨r, hr, hmoves, -⟩ | happly
    · obtain ⟨hc, -⟩ := Prod.mk.inj (List.mem_singleton.1 hcodes)
      exact absurd hc hone
    · rw [hruns r hr] at hmoves
      cases hmoves
    · exact happly

lemma toNat_of_moves {r : CaseRun} (hr : r ∈ lowerRuns) {n : Nat} (h : r.moves n = true) :
    (Char.ofNat (r.target n)).toNat = r.target n ∧ 'a'.toNat ≤ r.target n ∧
      r.target n ≠ 0x130 := by
  have hbounds := bounds_lowerRuns r hr
  have ha : 'a'.toNat = 97 := rfl
  obtain ⟨hn, hn', -⟩ := CaseRun.moves_iff.1 h
  rw [ha] at hbounds ⊢
  have hvalid : (r.target n).isValidChar := by
    rw [Nat.isValidChar, CaseRun.target]
    omega
  refine ⟨toNat_ofNat hvalid, ?_, ?_⟩
  · rw [CaseRun.target]
    omega
  · rw [CaseRun.target]
    omega

/-- **Lower case changes nothing the second time**, and it never gives the sign that escapes a
keyword. -/
lemma lowerChar_cases (c : Char) :
    ∃ d rest, lowerChar c = d :: rest ∧ lowerChar d = [d] ∧ (d = '@' → c = '@') := by
  have ha : 'a'.toNat = 97 := rfl
  -- What a run moves to is moved by no run.
  have hmoved : ∀ r ∈ lowerRuns, r.moves c.toNat = true → lowerChar (.ofNat (r.target c.toNat)) =
      [.ofNat (r.target c.toNat)] ∧ (Char.ofNat (r.target c.toNat) = '@' → c = '@') := by
    intro r hr hmoves
    obtain ⟨hvalue, hletter, hone⟩ := toNat_of_moves hr hmoves
    refine ⟨lowerChar_of_unmoved (by rwa [hvalue]) fun r' hr' => ?_, fun hat => ?_⟩
    · have hmisses := misses_lowerRuns
      rw [List.all_eq_true] at hmisses
      have hfirst := (bounds_lowerRuns r hr).1
      rw [hvalue]
      exact CaseRun.moves_target (List.all_eq_true.1 (hmisses r' hr') r hr) (by omega) hmoves
    · rw [hat] at hvalue
      rw [← hvalue] at hletter
      exact absurd hletter (by decide)
  by_cases hascii : c.toNat < 128
  · have hlower : lowerChar c = [c.toLower] := if_pos hascii
    rcases toLower_cases c with ⟨hfirst, hlast, hvalue⟩ | ⟨-, hsame⟩
    · have htarget : CaseRun.target ⟨0x41, 0x5a, 1, 32⟩ c.toNat = c.toLower.toNat := by
        rw [hvalue]
        rfl
      have hmoves : CaseRun.moves ⟨0x41, 0x5a, 1, 32⟩ c.toNat = true :=
        CaseRun.moves_iff.2 ⟨hfirst, hlast, Nat.mod_one _⟩
      have hsettled := hmoved _ List.mem_cons_self hmoves
      rw [htarget, Char.ofNat_toNat] at hsettled
      exact ⟨_, [], hlower, hsettled⟩
    · rw [hsame] at hlower
      exact ⟨c, [], hlower, hlower, id⟩
  · have hlower : lowerChar c = lowerMap.apply c := if_neg hascii
    rcases lowerMap.apply_cases c with ⟨codes, hcodes, happly⟩ | ⟨r, hr, hmoves, happly⟩ | happly
    · obtain ⟨-, rfl⟩ := Prod.mk.inj (List.mem_singleton.1 hcodes)
      exact ⟨'i', [Char.ofNat 0x307], hlower.trans happly, rfl, fun h => absurd h (by decide)⟩
    · exact ⟨_, [], hlower.trans happly, hmoved r hr hmoves⟩
    · have hsame := hlower.trans happly
      exact ⟨c, [], hsame, hsame, id⟩

/-- **A text in lower case is in lower case.** -/
theorem lowerFirst_lowerFirst (s : String) : lowerFirst (lowerFirst s) = lowerFirst s := by
  cases hs : s.toList with
  | nil => simp [lowerFirst, hs]
  | cons c rest =>
      obtain ⟨d, others, hlower, hsettled, -⟩ := lowerChar_cases c
      simp [lowerFirst, hs, hlower, hsettled]

lemma at_of_lowerFirst {s : String} (h : (lowerFirst s).toList.head? = some '@') :
    s.toList.head? = some '@' := by
  cases hs : s.toList with
  | nil => simp [lowerFirst, hs] at h
  | cons c rest =>
      obtain ⟨d, others, hlower, -, hat⟩ := lowerChar_cases c
      simp only [lowerFirst, hs, mapFirst_cons, hlower, String.toList_ofList, List.cons_append,
        List.head?_cons, Option.some.injEq] at h
      rw [List.head?_cons, hat h]

end Text

/-! ## Names that are changed where nobody shares them -/

/-- Two elements with one image make it count twice. -/
lemma one_lt_count_of_ne {α β : Type} [BEq β] [LawfulBEq β] {f : α → β} {as : List α} {a b : α}
    (ha : a ∈ as) (hb : b ∈ as) (hne : a ≠ b) (hf : f a = f b) :
    1 < (as.map f).count (f a) := by
  obtain ⟨before, after, rfl⟩ := List.append_of_mem ha
  have hother : 0 < (before.map f).count (f a) + (after.map f).count (f a) := by
    rcases List.mem_append.1 hb with hb | hb
    · exact Nat.add_pos_left (List.count_pos_iff.2 (hf ▸ List.mem_map_of_mem hb)) _
    · have hb := (List.mem_cons.1 hb).resolve_left hne.symm
      exact Nat.add_pos_right _ (List.count_pos_iff.2 (hf ▸ List.mem_map_of_mem hb))
  rw [List.map_append, List.map_cons, List.count_append, List.count_cons_self]
  omega

/-- **Changing the elements whose image nobody shares keeps all of them apart**, if a change changes
nothing the second time. -/
lemma nodup_map_unshared {α : Type} [BEq α] [LawfulBEq α] {f : α → α} (hf : ∀ a, f (f a) = f a)
    {as : List α} (h : as.Nodup) :
    (as.map fun a => if 1 < (as.map f).count (f a) then a else f a).Nodup := by
  rw [List.nodup_map_iff_inj_on h]
  intro a ha b hb hab
  by_contra hne
  -- An element that is kept and one that is changed to it would share their image.
  have hapart : ∀ {a b}, a ≠ b → a ∈ as → b ∈ as → ¬ 1 < (as.map f).count (f b) → a ≠ f b := by
    intro a b hne ha hb hunshared heq
    refine hunshared (one_lt_count_of_ne hb ha hne.symm ?_)
    rw [heq, hf]
  split at hab
  · split at hab
    · exact hne hab
    · rename_i hunshared
      exact hapart hne ha hb hunshared hab
  · rename_i hunshared
    split at hab
    · exact hapart (Ne.symm hne) hb ha hunshared hab.symm
    · exact hunshared (one_lt_count_of_ne ha hb hne hab)

namespace CSharp

open Text (lowerFirst)

/-! ## Parameters -/

/-- The parameter of a name among those of all fields, before it is escaped: in lower case unless
another name has the same form in lower case. -/
def unescapedParameter (names : List String) (name : String) : String :=
  if 1 < (names.map lowerFirst).count (lowerFirst name) then name else lowerFirst name

variable {c : ClassDef} {names : List String} {name other : String}

lemma parameterNames_eq (h : c.ownVariables.map (·.name) = names.map Scalar.text) :
    parameterNames c = .ok (names.map fun name => identifier (unescapedParameter names name)) := by
  have htraverse : traverse (fun v : InstanceVariable => v.name.lowerFirst?) c.ownVariables =
      .ok (names.map lowerFirst) := by
    rw [← traverse_map (f := Scalar.lowerFirst?) (h := fun v : InstanceVariable => v.name), h,
      traverse_map]
    exact traverse_eq_map fun name _ => rfl
  have hshown : c.ownVariables.map (fun v => v.name.display) = names := by
    have hdisplay := congrArg (List.map Scalar.display) h
    rw [List.map_map, List.map_map] at hdisplay
    exact hdisplay.trans (List.map_id names)
  have hzip : List.zipWith (parameterName (names.map lowerFirst)) c.ownVariables
      (names.map lowerFirst) = List.zipWith (fun name candidate => identifier
        (if 1 < (names.map lowerFirst).count candidate then name else candidate))
          (c.ownVariables.map fun v => v.name.display) (names.map lowerFirst) := by
    rw [List.zipWith_map_left]
    rfl
  rw [parameterNames, htraverse]
  change Except.ok (List.zipWith (parameterName (names.map lowerFirst)) c.ownVariables
    (names.map lowerFirst)) = _
  rw [hzip, hshown, List.zipWith_map_right, List.zipWith_self]
  rfl

lemma unescapedParameter_cases (names : List String) (name : String) :
    unescapedParameter names name = name ∨
      unescapedParameter names name = lowerFirst name := by
  rw [unescapedParameter]
  split
  · exact Or.inl rfl
  · exact Or.inr rfl

lemma identifier_not_mem_keywords (name : String) : identifier name ∉ keywords := by
  by_cases hname : name ∈ keywords
  · rw [identifier_of_mem hname]
    exact escaped_not_mem_keywords name
  · rwa [identifier_of_not_mem hname]

/-- Names without the sign that escapes a keyword are escaped apart. -/
lemma eq_of_identifier (hname : name.toList.head? ≠ some '@') (hother : other.toList.head? ≠ some '@')
    (h : identifier name = identifier other) : name = other := by
  have hsign : ∀ s : String, ("@" ++ s).toList.head? = some '@' := fun s => by
    rw [String.toList_append]
    rfl
  rcases identifier_eq_identifier h with heq | ⟨-, rfl⟩ | ⟨-, rfl⟩
  · exact heq
  · exact absurd (hsign name) hother
  · exact absurd (hsign other) hname

/-- **No two parameters are called alike.** -/
lemma nodup_parameters (hdistinct : names.Nodup)
    (hplain : ∀ name ∈ names, name.toList.head? ≠ some '@') :
    (names.map fun name => identifier (unescapedParameter names name)).Nodup := by
  have hunescaped : (names.map (unescapedParameter names)).Nodup :=
    nodup_map_unshared Text.lowerFirst_lowerFirst hdistinct
  have hsign : ∀ s ∈ names.map (unescapedParameter names), s.toList.head? ≠ some '@' := by
    intro s hs
    obtain ⟨name, hname, rfl⟩ := List.mem_map.1 hs
    rcases unescapedParameter_cases names name with heq | heq
    · rw [heq]
      exact hplain name hname
    · rw [heq]
      exact mt Text.at_of_lowerFirst (hplain name hname)
  have hcomp : (names.map fun name => identifier (unescapedParameter names name)) =
      (names.map (unescapedParameter names)).map identifier := by
    rw [List.map_map]
    rfl
  rw [hcomp, List.nodup_map_iff_inj_on hunescaped]
  exact fun a ha b hb => eq_of_identifier (hsign a ha) (hsign b hb)

/-! ## What the constructor does -/

/-- An assignment in a constructor: a field gets the value of a parameter. -/
structure Assignment where
  field : String
  parameter : String

namespace Assignment

def text (a : Assignment) : String := "this." ++ a.field ++ " = " ++ a.parameter ++ ";"

variable {α : Type}

/-- The fields of an object after some assignments, one after the other.  A parameter stands for
the argument at its place. -/
def run (parameters : List String) (arguments : List α) :
    List Assignment → (String → Option α) → String → Option α
  | [], object => object
  | a :: rest, object =>
    run parameters arguments rest
      (Function.update object a.field ((parameters.zip arguments).lookup a.parameter))

variable {parameters : List String} {arguments : List α} {as : List Assignment}

/-- Assignments to other fields leave a field as it is. -/
lemma run_of_not_mem {field : String} (h : field ∉ as.map (·.field)) (object : String → Option α) :
    run parameters arguments as object field = object field := by
  induction as generalizing object with
  | nil => rfl
  | cons a rest ih =>
      rw [List.map_cons, List.mem_cons, not_or] at h
      rw [run, ih h.2, Function.update_of_ne h.1]

/-- A field that is assigned once has the value of its parameter. -/
lemma run_of_mem (hfields : (as.map (·.field)).Nodup) {a : Assignment} (ha : a ∈ as)
    (object : String → Option α) :
    run parameters arguments as object a.field = (parameters.zip arguments).lookup a.parameter := by
  induction as generalizing object with
  | nil => simp at ha
  | cons first rest ih =>
      rw [List.map_cons, List.nodup_cons] at hfields
      rcases List.mem_cons.1 ha with rfl | ha
      · rw [run, run_of_not_mem hfields.1, Function.update_self]
      · rw [run, ih hfields.2 ha]

/-- Parameters that are called differently stand for different arguments. -/
lemma lookup_zip (hdistinct : parameters.Nodup) {i : Nat} {parameter : String} {argument : α}
    (hparameter : parameters[i]? = some parameter) (hargument : arguments[i]? = some argument) :
    (parameters.zip arguments).lookup parameter = some argument := by
  induction parameters generalizing arguments i with
  | nil => simp at hparameter
  | cons first rest ih =>
      cases arguments with
      | nil => simp at hargument
      | cons x xs =>
          rw [List.nodup_cons] at hdistinct
          cases i with
          | zero =>
              simp only [List.getElem?_cons_zero, Option.some.injEq] at hparameter hargument
              rw [List.zip_cons_cons, hparameter, hargument, List.lookup_cons_self]
          | succ i =>
              rw [List.getElem?_cons_succ] at hparameter hargument
              have hne : parameter ≠ first := fun heq =>
                hdistinct.1 (heq ▸ List.mem_of_getElem? hparameter)
              rw [List.zip_cons_cons, List.lookup_cons, beq_false_of_ne hne]
              exact ih hdistinct.2 hparameter hargument

end Assignment

/-- The assignments of the constructor that takes all fields. -/
def assignments (c : ClassDef) (parameters : List String) : List Assignment :=
  List.zipWith (fun v parameter => ⟨fieldName v, parameter⟩) c.ownVariables parameters

lemma fieldConstructor_eq {parameters types : List String}
    (hparameters : parameterNames c = .ok parameters)
    (htypes : traverse Language.csharp.variableType c.ownVariables = .ok types) :
    fieldConstructor c = .ok (member
      ("public " ++ c.name ++ "(" ++
        ", ".intercalate (List.zipWith (fun type name => type ++ " " ++ name) types parameters) ++
          ")")
      ((assignments c parameters).map Assignment.text)) := by
  rw [fieldConstructor, hparameters, htypes, assignments, List.map_zipWith]
  rfl

/-- The field at a place gets the argument at this place, whatever the object was before. -/
lemma run_assignments {α : Type} {parameters : List String} {arguments : List α}
    (hfields : (c.ownVariables.map fieldName).Nodup) (hdistinct : parameters.Nodup)
    (hlength : parameters.length = c.ownVariables.length) (object : String → Option α) {i : Nat}
    {v : InstanceVariable} {argument : α} (hv : c.ownVariables[i]? = some v)
    (hargument : arguments[i]? = some argument) :
    Assignment.run parameters arguments (assignments c parameters) object (fieldName v) =
      some argument := by
  obtain ⟨hi, -⟩ := List.getElem?_eq_some_iff.1 hv
  have hparameter : parameters[i]? = some parameters[i] := List.getElem?_eq_getElem (by omega)
  have hmem : (⟨fieldName v, parameters[i]⟩ : Assignment) ∈ assignments c parameters := by
    refine List.mem_of_getElem? (i := i) ?_
    rw [assignments, List.getElem?_zipWith, hv, hparameter]
  have hassigned : (assignments c parameters).map (·.field) = c.ownVariables.map fieldName := by
    calc (assignments c parameters).map (·.field)
        = (c.ownVariables.zip parameters).map fun p => fieldName p.1 := by
          rw [assignments, List.map_zipWith, List.map_zip_eq_zipWith]
          rfl
      _ = ((c.ownVariables.zip parameters).map Prod.fst).map fieldName := by
          rw [List.map_map]
          rfl
      _ = c.ownVariables.map fieldName := by rw [List.map_fst_zip (by omega)]
  rw [Assignment.run_of_mem (hassigned ▸ hfields) hmem]
  exact Assignment.lookup_zip hdistinct hparameter hargument

/-- The fields of names without the sign are different. -/
lemma nodup_fieldNames (h : c.ownVariables.map (·.name) = names.map Scalar.text)
    (hdistinct : names.Nodup) (hplain : ∀ name ∈ names, name.toList.head? ≠ some '@') :
    (c.ownVariables.map fieldName).Nodup := by
  have hfields : c.ownVariables.map fieldName = names.map identifier := by
    have hshown := congrArg (List.map fun s : Scalar => identifier s.display) h
    rw [List.map_map, List.map_map] at hshown
    exact hshown
  rw [hfields, List.nodup_map_iff_inj_on hdistinct]
  exact fun a ha b hb => eq_of_identifier (hplain a ha) (hplain b hb)

/-- **The parameters of a constructor stay distinct.**  If the fields of a class have different names,
of which none starts with the sign that escapes a keyword, then every field has its parameter, in
order, in lower case or as it is; no two are called alike, and none is a bare keyword.  The
constructor consists of assignments that store each argument in the field at its place. -/
theorem parameterNames_distinct (h : c.ownVariables.map (·.name) = names.map Scalar.text)
    (hdistinct : names.Nodup) (hplain : ∀ name ∈ names, name.toList.head? ≠ some '@') :
    ∃ parameters, parameterNames c = .ok parameters ∧
      List.Forall₂ (fun name parameter =>
        parameter = identifier name ∨ parameter = identifier (lowerFirst name)) names parameters ∧
      parameters.Nodup ∧ (∀ parameter ∈ parameters, parameter ∉ keywords) ∧
      (∀ types, traverse Language.csharp.variableType c.ownVariables = .ok types →
        fieldConstructor c = .ok (member
          ("public " ++ c.name ++ "(" ++
            ", ".intercalate (List.zipWith (fun type name => type ++ " " ++ name) types parameters)
              ++ ")")
          ((assignments c parameters).map Assignment.text))) ∧
      ∀ (α : Type) (arguments : List α) (object : String → Option α) (i : Nat)
        (v : InstanceVariable) (argument : α),
        c.ownVariables[i]? = some v → arguments[i]? = some argument →
          Assignment.run parameters arguments (assignments c parameters) object (fieldName v) =
            some argument := by
  have hnodup := nodup_parameters hdistinct hplain
  have hparameters := parameterNames_eq h
  refine ⟨_, hparameters, ?_, hnodup, ?_, fun types => fieldConstructor_eq hparameters, ?_⟩
  · rw [List.forall₂_map_right_iff, List.forall₂_same]
    intro name _
    exact (unescapedParameter_cases names name).imp (congrArg identifier) (congrArg identifier)
  · intro parameter hmem
    obtain ⟨name, -, rfl⟩ := List.mem_map.1 hmem
    exact identifier_not_mem_keywords _
  · intro α arguments object i v argument hv hargument
    have hlength : names.length = c.ownVariables.length := by
      simpa using (congrArg List.length h).symm
    exact run_assignments (nodup_fieldNames h hdistinct hplain) hnodup (by simpa using hlength)
      object hv hargument

/-- Names that differ in the case of the first letter, with keywords, with a letter whose lower case
is two characters, and with the sign for a unit, whose lower case is a letter. -/
def lookalikeNames : List String :=
  ["Class", "class", "Base", "\u0130d", "i\u0307d", "\u212A", "Size", ""]

def lookalikes : ClassDef :=
  { name := "Lookalike"
    package := .text "App"
    instanceVariables := lookalikeNames.map fun name =>
      { name := .text name, type := { name := "string", isBuiltIn := true } } }

lemma parameterNames_lookalikes : (parameterNames lookalikes).toOption =
    some ["Class", "@class", "@base", "\u0130d", "i\u0307d", "k", "size", ""] := by
  decide +kernel

theorem parameterNames_of_lookalikes :
    ∃ parameters, parameterNames lookalikes = .ok parameters ∧
      parameters = ["Class", "@class", "@base", "\u0130d", "i\u0307d", "k", "size", ""] ∧
      List.Forall₂ (fun name parameter =>
        parameter = identifier name ∨ parameter = identifier (lowerFirst name))
        lookalikeNames parameters ∧
      parameters.Nodup ∧ (∀ parameter ∈ parameters, parameter ∉ keywords) ∧
      (∀ types, traverse Language.csharp.variableType lookalikes.ownVariables = .ok types →
        fieldConstructor lookalikes = .ok (member
          ("public " ++ lookalikes.name ++ "(" ++
            ", ".intercalate (List.zipWith (fun type name => type ++ " " ++ name) types parameters)
              ++ ")")
          ((assignments lookalikes parameters).map Assignment.text))) ∧
      ∀ (α : Type) (arguments : List α) (object : String → Option α) (i : Nat)
        (v : InstanceVariable) (argument : α),
        lookalikes.ownVariables[i]? = some v → arguments[i]? = some argument →
          Assignment.run parameters arguments (assignments lookalikes parameters) object
            (fieldName v) = some argument := by
  have hnames : lookalikes.ownVariables.map (·.name) = lookalikeNames.map Scalar.text := rfl
  obtain ⟨parameters, hparameters, hrest⟩ :=
    parameterNames_distinct hnames (by decide) (by decide)
  have hvalue := parameterNames_lookalikes
  rw [hparameters] at hvalue
  exact ⟨parameters, hparameters, Option.some.inj hvalue, hrest⟩

end CSharp

end SchemaClasses
