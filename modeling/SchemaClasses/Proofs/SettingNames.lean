import Mathlib.Tactic.TFAE
import SchemaClasses.Proofs.Outcome
import SchemaClasses.Settings

/-!
# Names in an object of settings

An object of settings may hold members that are no settings.  They are to be ignored, and nearly all
of them are: a name that is neither that of a setting nor taken changes nothing, whatever its value
and wherever it stands (`Draft.write_of_unknown`).

Five names are taken all the same: one is that of the check, one that of the description, one
stands for all members at once, and two cannot be written.  Each of them makes a difference to an
object without any other member (`described_of_taken`), so `ignored_tfae` is exact: these are the
names that are not ignored, and there are no others.
-/

namespace SchemaClasses.Settings

variable {P : String → Prop} {m m' : Mapping} {d : Draft} {name : String} {v : Value}

/-! ## Names -/

/-- The names of the settings. -/
def names : List String :=
  ["models_namespace", "services_namespace", "server", "default_accessibility",
    "add_generation_comment", "generation_command", "output"]

/-- Names that are not those of settings, and have a meaning of their own. -/
def takenNames : List String := "validate" :: "to_dict" :: allMembers :: reservedNames

lemma Draft.set?_eq_none (h : name ∉ names) : d.set? name v = none := by
  unfold Draft.set?
  split
  case h_8 => rfl
  all_goals exact absurd (by decide) h

/-- **A member whose name is neither that of a setting nor taken is ignored.** -/
lemma Draft.write_of_unknown (hname : name ∉ names) (htaken : name ∉ takenNames) :
    d.write name v = .ok d := by
  rw [takenNames, List.mem_cons, List.mem_cons, List.mem_cons, not_or, not_or, not_or] at htaken
  obtain ⟨hcheck, hdescribe, hall, hreserved⟩ := htaken
  unfold Draft.write
  rw [Draft.set?_eq_none hname]
  dsimp only
  rw [if_neg hall, if_neg hreserved, if_neg hcheck, if_neg hdescribe]

/-! ## More members -/

/-- Members with names of a kind are put anywhere among the members of an object. -/
inductive Padded (P : String → Prop) : Mapping → Mapping → Prop where
  | nil : Padded P [] []
  | keep (e : Scalar × Value) {m m' : Mapping} (rest : Padded P m m') :
      Padded P (e :: m) (e :: m')
  | add {name : String} (v : Value) {m m' : Mapping} (kind : P name) (rest : Padded P m m') :
      Padded P m ((.text name, v) :: m')

lemma Draft.writeAll_of_padded
    (hP : ∀ name, P name → ∀ (d : Draft) (v : Value), d.write name v = .ok d)
    (h : Padded P m m') : Draft.writeAll Draft.write d m' = Draft.writeAll Draft.write d m := by
  induction h generalizing d with
  | nil => rfl
  | keep e _ ih =>
      rw [Draft.writeAll, Draft.writeAll]
      simp only [ih]
  | add v kind _ ih =>
      rw [Draft.writeAll, Scalar.display_text, hP _ kind d v]
      exact ih

/-- Each of the taken names makes a difference to an object that has no other member. -/
lemma described_of_taken (h : name ∈ takenNames) :
    ∃ v, (ofObject [(.text name, v)] >>= describe) ≠ (ofObject [] >>= describe) := by
  have hplain : (ofObject [] >>= describe).toBool = true := rfl
  have hdiffers : ∃ v, (ofObject [(.text name, v)] >>= describe).toBool = false := by
    simp only [takenNames, reservedNames, List.mem_cons, List.not_mem_nil, or_false] at h
    rcases h with rfl | rfl | rfl | rfl | rfl
    · exact ⟨.null, rfl⟩
    · exact ⟨.null, rfl⟩
    · exact ⟨.mapping [], rfl⟩
    · exact ⟨.null, rfl⟩
    · exact ⟨.null, rfl⟩
  obtain ⟨v, hv⟩ := hdiffers
  refine ⟨v, fun hsame => ?_⟩
  rw [hsame, hplain] at hv
  cases hv

/-- **Which members are ignored.**  For names of a kind, none of them that of a setting, three
things are the same: none of the names is taken; more members with such names, anywhere and with any
values, change nothing about the settings or why there are none; and they change nothing about the
description of the settings or why there is none. -/
theorem ignored_tfae (hP : ∀ name, P name → name ∉ names) : List.TFAE [
    ∀ name, P name → name ∉ takenNames,
    ∀ m m', Padded P m m' → ofObject m' = ofObject m,
    ∀ m m', Padded P m m' → (ofObject m' >>= describe) = (ofObject m >>= describe)] := by
  tfae_have 1 → 2 := by
    intro htaken m m' h
    rw [ofObject, ofObject, Draft.writeAll_of_padded (fun name hname d v => ?_) h]
    exact Draft.write_of_unknown (hP name hname) (htaken name hname)
  tfae_have 2 → 3 := by
    intro hsame m m' h
    rw [hsame m m' h]
  tfae_have 3 → 1 := by
    intro hsame name hname htaken
    obtain ⟨v, hv⟩ := described_of_taken htaken
    exact hv (hsame [] _ (.add v hname .nil))
  tfae_finish

/-- Names that are close to those of settings, or belong to nothing. -/
def lookalikes : List String := ["Server", "outputs", "from_dict", ""]

/-- Lookalikes before and behind a setting that is refused change nothing about the refusal. -/
theorem ignored_of_lookalikes :
    (∀ name ∈ lookalikes, name ∉ names) ∧
    Padded (· ∈ lookalikes) [(.text "models_namespace", .text "")]
      [(.text "", .null), (.text "models_namespace", .text ""), (.text "Server", .list [])] ∧
    ofObject [(.text "", .null), (.text "models_namespace", .text ""), (.text "Server", .list [])] =
      .error (.settings .emptyModelsNamespace) := by
  have hnames : ∀ name ∈ lookalikes, name ∉ names := by decide
  have hpadded : Padded (· ∈ lookalikes) [(.text "models_namespace", .text "")]
      [(.text "", .null), (.text "models_namespace", .text ""), (.text "Server", .list [])] :=
    .add .null (by decide) (.keep _ (.add (.list []) (by decide) .nil))
  have hignored : ∀ m m', Padded (· ∈ lookalikes) m m' → ofObject m' = ofObject m :=
    ((ignored_tfae hnames).out 0 1).1 (by decide)
  exact ⟨hnames, hpadded, (hignored _ _ hpadded).trans rfl⟩

/-- **A member that is no setting need not be ignored**: with one of this name, settings that are
otherwise fine are refused. -/
theorem described_of_validate :
    "validate" ∉ names ∧
    Padded (· = "validate") [] [(.text "validate", .scalar (.int 1))] ∧
    (∃ s, ofObject [] = .ok s) ∧
    ofObject [(.text "validate", .scalar (.int 1))] = .error (.misplaced .null) :=
  ⟨by decide, .add _ rfl .nil, ⟨_, rfl⟩, rfl⟩

end SchemaClasses.Settings
