import Mathlib.Logic.Relation
import SchemaClasses.Proofs.Overwriting
import SchemaClasses.Proofs.SettingNames

/-!
# Settings that are written back

Settings are read one member at a time: each member is written over a draft that starts out with
the defaults, and the draft is checked at the end.  So it could matter in which order the members
come.  It does not, as long as the object holds settings and nothing else: no two of its members
write to one place, so the draft is the defaults overlaid with what the object gives
(`Draft.writeAll_eq_over`), and that only asks what stands under a name.

Reading and writing back are then inverse to each other as far as they can be
(`ofObject_roundTrip`).  What is written is read back as it was, whatever the settings
(`ofObject_of_describe`), and what is read is written with the defaults filled in (`Overlays`).
-/

namespace SchemaClasses

open Entries (TextKeys)

/-! ## Looking up a name -/

namespace Mapping

variable {rest : Mapping} {name : String} {v : Value}

lemma field?_cons_self (rest : Mapping) (name : String) (v : Value) :
    field? ((.text name, v) :: rest) name = some v := by
  rw [field?, Entries.get?_cons, if_pos (Scalar.beq_text.2 rfl)]

lemma field?_cons_of_ne {asked : String} (h : name ≠ asked) :
    field? ((.text name, v) :: rest) asked = field? rest asked := by
  rw [field?, Entries.get?_cons, if_neg (mt (fun e => Scalar.text.inj (Scalar.beq_text.1 e)) h),
    field?]

lemma field?_append (m m' : Mapping) (asked : String) :
    field? (m ++ m') asked = (field? m asked).or (field? m' asked) := by
  rw [field?, Entries.get?, List.find?_append, Option.map_or]
  rfl

/-- The members behind the first one may be asked before it. -/
lemma field?_cons_of_not_mem (hnew : Scalar.text name ∉ rest.map (·.1)) (asked : String) :
    field? ((.text name, v) :: rest) asked =
      (field? rest asked).or (field? [(.text name, v)] asked) := by
  by_cases hsame : name = asked
  · subst hsame
    rw [field?_cons_self, field?_cons_self, Settings.field?_of_not_mem hnew, Option.none_or]
  · rw [field?_cons_of_ne hsame, field?_cons_of_ne hsame]
    exact (Option.or_none).symm

end Mapping

namespace Settings

variable {m m' w : Mapping} {d : Draft} {c : Settings} {name : String} {v : Value}

/-! ## Objects that hold settings -/

/-- If output settings are an object, it holds a mode and a way of writing and nothing else. -/
def DeclaredOutput (v : Value) : Prop :=
  ∀ o ring, v = .mapping o ring →
    TextKeys o ∧ ∀ key ∈ Entries.keys o, key = .text "mode" ∨ key = .text "atomic_write"

/-- An object that holds settings and nothing else. -/
structure Declared (m : Mapping) : Prop where
  textKeys : TextKeys m
  names : ∀ e ∈ m, e.1.display ∈ names
  output : ∀ v, (Scalar.text "output", v) ∈ m → DeclaredOutput v

/-- What output settings come to. -/
def OutputDraft.ofValue : Value → OutputDraft
  | .mapping o _ =>
    .fields ((Mapping.field? o "mode").getD (.text "error"))
      ((Mapping.field? o "atomic_write").getD (.scalar (.bool true)))
  | v => .other v

/-- A draft, overlaid with what an object gives. -/
def Draft.over (d : Draft) (m : Mapping) : Draft :=
  { d with
    modelsNamespace := (Mapping.field? m "models_namespace").getD d.modelsNamespace
    servicesNamespace := (Mapping.field? m "services_namespace").getD d.servicesNamespace
    server := (Mapping.field? m "server").getD d.server
    defaultAccessibility :=
      (Mapping.field? m "default_accessibility").getD d.defaultAccessibility
    addGenerationComment :=
      (Mapping.field? m "add_generation_comment").getD d.addGenerationComment
    generationCommand := (Mapping.field? m "generation_command").getD d.generationCommand
    output := ((Mapping.field? m "output").map OutputDraft.ofValue).getD d.output }

lemma Draft.over_over {rest : Mapping} (hnew : Scalar.text name ∉ rest.map (·.1)) :
    (d.over [(.text name, v)]).over rest = d.over ((.text name, v) :: rest) := by
  simp only [Draft.over, Mapping.field?_cons_of_not_mem hnew, Option.getD_or, Option.map_or]

lemma readOutput_eq (h : DeclaredOutput v) : readOutput v = .ok (OutputDraft.ofValue v) := by
  cases v with
  | mapping o ring =>
      refine if_pos (List.all_eq_true.2 fun key hkey => ?_)
      rcases (h o ring rfl).2 key hkey with rfl | rfl
      · rfl
      · rfl
  | scalar s => rfl
  | list items ring => rfl

/-- One setting is written over the draft. -/
lemma Draft.write_eq_over (hname : name ∈ names) (h : name = "output" → DeclaredOutput v) :
    d.write name v = .ok (d.over [(.text name, v)]) := by
  simp only [names, List.mem_cons, List.not_mem_nil, or_false] at hname
  rcases hname with rfl | rfl | rfl | rfl | rfl | rfl | rfl
  case inr.inr.inr.inr.inr.inr =>
    have hmap : d.write "output" v = (readOutput v).map fun output => { d with output := output } :=
      rfl
    rw [hmap, readOutput_eq (h rfl)]
    rfl
  all_goals rfl

lemma Declared.tail {e : Scalar × Value} (hm : Declared (e :: m)) : Declared m :=
  ⟨⟨(List.forall_mem_cons.1 hm.textKeys.1).2, (List.nodup_cons.1 hm.textKeys.2).2⟩,
    (List.forall_mem_cons.1 hm.names).2,
    fun v hmem => hm.output v (List.mem_cons_of_mem _ hmem)⟩

/-- **All members are written over the draft.** -/
lemma Draft.writeAll_eq_over (hm : Declared m) :
    Draft.writeAll Draft.write d m = .ok (d.over m) := by
  induction m generalizing d with
  | nil => rfl
  | cons e rest ih =>
      obtain ⟨⟨name, hkey⟩, -⟩ := List.forall_mem_cons.1 hm.textKeys.1
      obtain ⟨key, v⟩ := e
      obtain rfl := hkey
      have hname := hm.names _ List.mem_cons_self
      rw [Scalar.display_text] at hname
      have hwrite : d.write name v = .ok (d.over [(.text name, v)]) := by
        refine Draft.write_eq_over hname fun houtput => ?_
        subst houtput
        exact hm.output v List.mem_cons_self
      rw [Draft.writeAll, Scalar.display_text, hwrite]
      exact (ih hm.tail).trans
        (congrArg Except.ok (Draft.over_over (List.nodup_cons.1 hm.textKeys.2).1))

lemma ofObject_eq_check (hm : Declared m) : ofObject m = (Draft.over {} m).check := by
  rw [ofObject, Draft.writeAll_eq_over hm]

/-! ## Reordering -/

/-- One object of settings comes from another by reordering its members, or those of its output
settings. -/
inductive Reorders : Mapping → Mapping → Prop where
  | members {m m' : Mapping} (perm : m.Perm m') : Reorders m m'
  | output (before after : Mapping) {o o' : Mapping} (ring : Option Nat) (perm : o.Perm o') :
      Reorders (before ++ (.text "output", .mapping o ring) :: after)
        (before ++ (.text "output", .mapping o' ring) :: after)

/-- The order of the output settings does not matter either. -/
lemma OutputDraft.ofValue_of_perm {o o' : Mapping} (ring : Option Nat) (ho : TextKeys o)
    (hperm : o.Perm o') :
    OutputDraft.ofValue (.mapping o' ring) = OutputDraft.ofValue (.mapping o ring) := by
  simp only [OutputDraft.ofValue, Mapping.field?, ho.get?_of_perm hperm]

lemma Draft.over_of_perm (hm : TextKeys m) (hperm : m.Perm m') : d.over m' = d.over m := by
  simp only [Draft.over, Mapping.field?, hm.get?_of_perm hperm]

/-- Only what the output settings come to matters, wherever they stand. -/
lemma Draft.over_of_output {before after : Mapping} {v v' : Value}
    (hsame : OutputDraft.ofValue v' = OutputDraft.ofValue v) :
    d.over (before ++ (.text "output", v') :: after) =
      d.over (before ++ (.text "output", v) :: after) := by
  have hother : ∀ asked, "output" ≠ asked →
      Mapping.field? (before ++ (.text "output", v') :: after) asked =
        Mapping.field? (before ++ (.text "output", v) :: after) asked := by
    intro asked hasked
    rw [Mapping.field?_append, Mapping.field?_append, Mapping.field?_cons_of_ne hasked,
      Mapping.field?_cons_of_ne hasked]
  have houtput : (Mapping.field? (before ++ (.text "output", v') :: after) "output").map
      OutputDraft.ofValue = (Mapping.field? (before ++ (.text "output", v) :: after) "output").map
        OutputDraft.ofValue := by
    rw [Mapping.field?_append, Mapping.field?_append, Mapping.field?_cons_self,
      Mapping.field?_cons_self, Option.map_or, Option.map_or, Option.map_some, Option.map_some,
      hsame]
  rw [Draft.over, Draft.over, houtput, hother "models_namespace" (by decide),
    hother "services_namespace" (by decide), hother "server" (by decide),
    hother "default_accessibility" (by decide), hother "add_generation_comment" (by decide),
    hother "generation_command" (by decide)]

lemma Declared.of_reorders (hm : Declared m) (h : Reorders m m') : Declared m' := by
  cases h with
  | members hperm =>
      exact ⟨hm.textKeys.perm hperm, fun e he => hm.names e (hperm.mem_iff.2 he),
        fun v hmem => hm.output v (hperm.mem_iff.2 hmem)⟩
  | @output before after o o' ring hperm =>
      obtain ⟨⟨htexts, hnodup⟩, hnames, houtput⟩ := hm
      have hreordered : DeclaredOutput (.mapping o' ring) := by
        rintro _ _ ⟨⟩
        obtain ⟨ho, hkeys⟩ := houtput _ (List.mem_append_right _ List.mem_cons_self) o ring rfl
        exact ⟨ho.perm hperm, fun key hkey => hkeys key ((hperm.map _).mem_iff.2 hkey)⟩
      refine ⟨⟨?_, ?_⟩, ?_, ?_⟩
      · rw [List.forall_mem_append, List.forall_mem_cons] at htexts ⊢
        exact htexts
      · rw [List.map_append, List.map_cons] at hnodup ⊢
        exact hnodup
      · rw [List.forall_mem_append, List.forall_mem_cons] at hnames ⊢
        exact hnames
      · intro v hmem
        rcases List.mem_append.1 hmem with hbefore | hmem
        · exact houtput v (List.mem_append_left _ hbefore)
        · rcases List.mem_cons.1 hmem with hsame | hafter
          · rw [(Prod.mk.inj hsame).2]
            exact hreordered
          · exact houtput v (List.mem_append_right _ (List.mem_cons_of_mem _ hafter))

/-- **Reordering changes nothing**: the step. -/
lemma ofObject_of_reorders (hm : Declared m) (h : Reorders m m') : ofObject m' = ofObject m := by
  rw [ofObject_eq_check hm, ofObject_eq_check (hm.of_reorders h)]
  congr 1
  cases h with
  | members hperm => exact Draft.over_of_perm hm.textKeys hperm
  | @output before after o o' ring hperm =>
      have ho := (hm.output _ (List.mem_append_right _ List.mem_cons_self) o ring rfl).1
      exact Draft.over_of_output (OutputDraft.ofValue_of_perm ring ho hperm)

/-! ## Writing back -/

/-- The draft that settings are read back as. -/
def draft (c : Settings) (mode : String) : Draft :=
  { modelsNamespace := c.modelsNamespace
    servicesNamespace := c.servicesNamespace
    server := c.server
    defaultAccessibility := .text c.defaultAccessibility.keyword
    addGenerationComment := c.addGenerationComment
    generationCommand := c.generationCommand
    output := .fields (.text mode) c.atomicWrite }

/-- **What is written is read back.** -/
theorem ofObject_of_describe (hnamed : c.modelsNamespace.truthy = true)
    (h : describe c = .ok w) : ofObject w = .ok c := by
  unfold describe at h
  split at h
  · rename_i mode hword
    split at h
    · rename_i hdescribable
      obtain rfl := Except.ok.inj h
      have hread : (c.draft mode).check = .ok c := by
        exact Draft.check_eq_ok.2 ⟨rfl, rfl, hnamed, rfl, rfl, Accessibility.ofValue?_eq_some.2 rfl,
          rfl, rfl, ⟨.text mode, rfl, readMode_text_eq_ok.2 hword⟩, hdescribable.symm⟩
      exact hread
    · cases h
  · cases h

/-! ## Filling in the defaults -/

/-- The members of the output settings. -/
def outputMembers (m : Mapping) : Mapping :=
  match Mapping.field? m "output" with
  | some (.mapping o _) => o
  | _ => []

/-- The defaults, as they are written. -/
def defaults : Mapping := [
  (.text "models_namespace", .text "App\\Models"),
  (.text "services_namespace", .text "App\\Services"),
  (.text "server", .text ""),
  (.text "default_accessibility", .text "private"),
  (.text "add_generation_comment", .scalar (.bool true)),
  (.text "generation_command", .text "asyncapi_to_code"),
  (.text "output", .mapping [
    (.text "mode", .text "error"),
    (.text "atomic_write", .scalar (.bool true))])]

/-- **One object is another with the defaults filled in.** -/
structure Overlays (w m : Mapping) : Prop where
  settings : ∀ name ∈ names, name ≠ "output" →
    Mapping.field? w name = (Mapping.field? m name).or (Mapping.field? defaults name)
  output : ∀ name ∈ ["mode", "atomic_write"],
    Mapping.field? (outputMembers w) name =
      (Mapping.field? (outputMembers m) name).or (Mapping.field? (outputMembers defaults) name)

lemma output_of_over {mode atomicWrite : Value}
    (h : (Draft.over {} m).output = .fields mode atomicWrite) :
    (Mapping.field? (outputMembers m) "mode").getD (.text "error") = mode ∧
      (Mapping.field? (outputMembers m) "atomic_write").getD (.scalar (.bool true)) =
        atomicWrite := by
  have houtput : ((Mapping.field? m "output").map OutputDraft.ofValue).getD
      (.fields (.text "error") (.scalar (.bool true))) = .fields mode atomicWrite := h
  unfold outputMembers
  cases hfield : Mapping.field? m "output" with
  | none =>
      rw [hfield] at houtput
      obtain ⟨rfl, rfl⟩ := OutputDraft.fields.inj houtput
      exact ⟨rfl, rfl⟩
  | some v =>
      rw [hfield] at houtput
      cases v with
      | mapping o ring =>
          obtain ⟨rfl, rfl⟩ := OutputDraft.fields.inj houtput
          exact ⟨rfl, rfl⟩
      | scalar x => cases houtput
      | list items ring => cases houtput

lemma some_eq_or {given : Option Value} {default : Value} (h : given.getD default = v) :
    some v = given.or (some default) := by
  rw [Option.or_some, h]

/-- What is written of settings that were read is what was given, with the defaults filled in. -/
lemma overlays_of_describe (h : (Draft.over {} m).Passes c) (hw : describe c = .ok w) :
    Overlays w m := by
  obtain ⟨mode, houtput, hmode⟩ := h.output
  obtain ⟨hgiven, hatomic⟩ := output_of_over houtput
  unfold describe at hw
  split at hw
  · rename_i word hword
    split at hw
    · obtain rfl := Except.ok.inj hw
      refine ⟨fun name hname hother => ?_, fun name hname => ?_⟩
      · simp only [names, List.mem_cons, List.not_mem_nil, or_false] at hname
        rcases hname with rfl | rfl | rfl | rfl | rfl | rfl | rfl
        · exact some_eq_or h.modelsNamespace
        · exact some_eq_or h.servicesNamespace
        · exact some_eq_or h.server
        · exact some_eq_or (Accessibility.ofValue?_eq_some.1 h.defaultAccessibility)
        · exact some_eq_or h.addGenerationComment
        · exact some_eq_or h.generationCommand
        · exact absurd rfl hother
      · rcases List.mem_pair.1 hname with rfl | rfl
        · rw [eq_text_of_readMode hmode hword] at hgiven
          exact some_eq_or hgiven
        · exact some_eq_or hatomic
    · cases hw
  · cases hw

lemma describe_isOk {mode : String} (hmode : c.outputMode.word? = some mode)
    (hdescribable : c.describable = true) : ∃ w, describe c = .ok w := by
  rw [describe, hmode, hdescribable]
  exact ⟨_, rfl⟩

/-- **Settings survive being written back.**  Take an object of settings with nothing else in it.
If it is accepted and its mode is a text or left out, then the settings have the mode of this word,
and they are written back as what the object gives with the defaults filled in; that object is read
as the same settings, and is written back as it is.  And whether the object is accepted or not, its
members and those of its output settings may come in any order. -/
theorem ofObject_roundTrip (hm : Declared m) :
    (∀ c mode, ofObject m = .ok c → declaredMode m = .text mode →
      c.outputMode.word? = some mode ∧
      ∃ w, describe c = .ok w ∧ Overlays w m ∧ ofObject w = .ok c ∧
        (ofObject w >>= describe) = .ok w) ∧
    ∀ m', Relation.ReflTransGen Reorders m m' → ofObject m' = ofObject m := by
  constructor
  · intro c mode hc hmode
    have hpasses : (Draft.over {} m).Passes c := by
      rw [ofObject_eq_check hm] at hc
      exact Draft.check_eq_ok.1 hc
    have hword : c.outputMode.word? = some mode := by
      have hread := readMode_declaredMode hm.textKeys hc
      rw [hmode] at hread
      exact readMode_text_eq_ok.1 hread
    obtain ⟨w, hw⟩ := describe_isOk hword hpasses.describable.symm
    have hback := ofObject_of_describe hpasses.named hw
    refine ⟨hword, w, hw, overlays_of_describe hpasses hw, hback, ?_⟩
    rw [hback]
    exact hw
  · intro m' h
    have hall : Declared m' ∧ ofObject m' = ofObject m := by
      induction h with
      | refl => exact ⟨hm, rfl⟩
      | tail _ hstep ih =>
          obtain ⟨hdeclared, hsame⟩ := ih
          exact ⟨hdeclared.of_reorders hstep, (ofObject_of_reorders hdeclared hstep).trans hsame⟩
    exact hall.2

/-- Some settings, in an order of their own. -/
def shuffled : Mapping := [
  (.text "server", .scalar (.int 7)),
  (.text "output", .mapping [
    (.text "atomic_write", .scalar (.bool false)), (.text "mode", .text "force")])]

/-- The same settings in another order, within their output settings as well. -/
def reshuffled : Mapping := [
  (.text "output", .mapping [
    (.text "mode", .text "force"), (.text "atomic_write", .scalar (.bool false))]),
  (.text "server", .scalar (.int 7))]

/-- Both come to the same settings, which are written back in full. -/
theorem ofObject_roundTrip_shuffled :
    Declared shuffled ∧ Relation.ReflTransGen Reorders shuffled reshuffled ∧
      declaredMode shuffled = .text "force" ∧ ∃ c, ofObject shuffled = .ok c ∧
        ofObject reshuffled = .ok c ∧ ∃ w, describe c = .ok w ∧ ofObject w = .ok c ∧
          Mapping.field? w "server" = some (.scalar (.int 7)) ∧
          Mapping.field? w "models_namespace" = some (.text "App\\Models") := by
  have hm : Declared shuffled := by
    refine ⟨⟨by simp [shuffled], by simp [shuffled]⟩, by decide, fun v hmem => ?_⟩
    obtain rfl : v = .mapping [
        (.text "atomic_write", .scalar (.bool false)), (.text "mode", .text "force")] := by
      simpa [shuffled] using hmem
    rintro _ _ ⟨⟩
    exact ⟨⟨by simp, by simp⟩, by simp [Entries.keys]⟩
  have hreorders : Relation.ReflTransGen Reorders shuffled reshuffled :=
    .tail (.single (.members (.swap _ _ _))) (.output [] _ none (.swap _ _ _))
  obtain ⟨c, hc⟩ : ∃ c, ofObject shuffled = .ok c := ⟨_, rfl⟩
  obtain ⟨hback, horder⟩ := ofObject_roundTrip hm
  obtain ⟨-, w, hw, hoverlays, hread, -⟩ := hback c "force" hc rfl
  exact ⟨hm, hreorders, rfl, c, hc, (horder _ hreorders).trans hc, w, hw, hread,
    hoverlays.settings "server" (by decide) (by decide),
    hoverlays.settings "models_namespace" (by decide) (by decide)⟩

end Settings

end SchemaClasses
