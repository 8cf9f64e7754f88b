import SchemaClasses.CommandLine.Arguments
import SchemaClasses.Proofs.Outcome

/-!
# Command lines in parts

A command line is read from left to right, and what was given before does not change how the rest is
read: it only lies under what the rest gives (`readArguments_over`).  So once its first part is
complete, the second can be read for itself (`readArguments_append`).  Between two such parts,
switches can be added that leave the options and arguments as they are (`readArguments_insert`).
-/

namespace SchemaClasses.CommandLine

/-! ## Parts -/

/-- What one part of a command line gives, read behind another part. -/
def Given.over (g g₀ : Given) : Given :=
  ⟨g.fields ++ g₀.fields, g.switches ++ g₀.switches, g.arguments ++ g₀.arguments⟩

def Pending.over (p : Pending) (g₀ : Given) : Pending :=
  match p with
  | done g => .done (g.over g₀)
  | value f name g => .value f name (g.over g₀)

variable {before after words : List String} {g g₀ b : Given}

lemma Given.isOn_over (g g₀ : Given) (s : Switch) :
    (g.over g₀).isOn s = (g.isOn s || g₀.isOn s) := List.contains_append

lemma readLetters_over (cs : List Char) (g g₀ : Given) :
    readLetters cs (g.over g₀) = (readLetters cs g).map (·.over g₀) := by
  induction cs generalizing g with
  | nil => rfl
  | cons c rest ih =>
      rw [readLetters, readLetters]
      split
      · rfl
      · exact ih (g.turnOn _)
      · split
        · rfl
        · rfl

lemma readOption_over (arg : String) (g g₀ : Given) :
    readOption arg (g.over g₀) = (readOption arg g).map (·.over g₀) := by
  rw [readOption, readOption]
  dsimp only
  split
  · rfl
  · rfl
  · rfl
  · rfl
  · split
    · rfl
    · exact readLetters_over _ _ _

lemma foldl_addArgument_over (args : List String) (g g₀ : Given) :
    args.foldl Given.addArgument (g.over g₀) = (args.foldl Given.addArgument g).over g₀ := by
  induction args generalizing g with
  | nil => rfl
  | cons arg rest ih => exact ih (g.addArgument arg)

lemma readArguments_cons (arg : String) (rest : List String) (g : Given) :
    readArguments (arg :: rest) g =
      if arg = "--" then .ok (rest.foldl Given.addArgument g)
      else if isOption arg then
        match readOption arg g, rest with
        | .error e, _ => .error e
        | .ok (.done g), rest => readArguments rest g
        | .ok (.value _ name _), [] => .error (.missingValue name)
        | .ok (.value f _ g), v :: rest => readArguments rest (g.setField f v)
      else readArguments rest (g.addArgument arg) :=
  readArguments.eq_def (arg :: rest) g

lemma readArguments_over (args : List String) (g g₀ : Given) :
    readArguments args (g.over g₀) = (readArguments args g).map (·.over g₀) := by
  fun_induction readArguments args g with
  | case1 g => rfl
  | case2 rest g =>
      rw [readArguments_cons, if_pos rfl, foldl_addArgument_over]
      rfl
  | case3 arg rest g hends hoption e hread =>
      rw [readArguments_cons, if_neg hends, if_pos hoption, readOption_over, hread]
      rfl
  | case4 arg g hends hoption g' rest hread ih =>
      rw [readArguments_cons, if_neg hends, if_pos hoption, readOption_over, hread]
      exact ih
  | case5 arg g hends hoption f name g' hread =>
      rw [readArguments_cons, if_neg hends, if_pos hoption, readOption_over, hread]
      rfl
  | case6 arg g hends hoption f name g' v rest hread ih =>
      rw [readArguments_cons, if_neg hends, if_pos hoption, readOption_over, hread]
      exact ih
  | case7 arg rest g hends hoption ih =>
      rw [readArguments_cons, if_neg hends, if_neg hoption]
      exact ih

/-- What stands behind a complete part of a command line is read after it. -/
lemma readArguments_append (hends : "--" ∉ before) (h : readArguments before g = .ok b)
    (after : List String) : readArguments (before ++ after) g = readArguments after b := by
  fun_induction readArguments before g with
  | case1 g =>
      rw [Except.ok.inj h]
      rfl
  | case2 rest g => exact absurd List.mem_cons_self hends
  | case3 arg rest g hend hoption e hread => cases h
  | case4 arg g hend hoption g' rest hread ih =>
      rw [List.cons_append, readArguments_cons, if_neg hend, if_pos hoption, hread]
      exact ih (fun hmem => hends (List.mem_cons_of_mem _ hmem)) h
  | case5 arg g hend hoption f name g' hread => cases h
  | case6 arg g hend hoption f name g' v rest hread ih =>
      rw [List.cons_append, readArguments_cons, if_neg hend, if_pos hoption, hread]
      exact ih (fun hmem => hends (List.mem_cons_of_mem _ (List.mem_cons_of_mem _ hmem))) h
  | case7 arg rest g hend hoption ih =>
      rw [List.cons_append, readArguments_cons, if_neg hend, if_neg hoption]
      exact ih (fun hmem => hends (List.mem_cons_of_mem _ hmem)) h

/-! ## Switches -/

/-- A command line gives the same options and arguments as another one; its switches may differ. -/
structure Given.Echoes (g' g : Given) : Prop where
  fields : g'.fields = g.fields
  arguments : g'.arguments = g.arguments

def switchWords : List String := ["--force", "--verbose", "-v"]

lemma readArguments_switches (hwords : words ⊆ switchWords) (g : Given) :
    ∃ g', readArguments words g = .ok g' ∧ g'.Echoes g ∧ g'.isOn .help = g.isOn .help ∧
      (g'.isOn .force = true ↔ "--force" ∈ words ∨ g.isOn .force = true) := by
  induction words generalizing g with
  | nil => exact ⟨g, rfl, ⟨rfl, rfl⟩, rfl, by simp⟩
  | cons word rest ih =>
      obtain ⟨hword, hrest⟩ := List.cons_subset.1 hwords
      simp only [switchWords, List.mem_cons, List.not_mem_nil, or_false] at hword
      rcases hword with rfl | rfl | rfl
      · obtain ⟨g', hg', hechoes, hhelp, hforce⟩ := ih hrest (g.turnOn .force)
        refine ⟨g', hg', ⟨hechoes.fields, hechoes.arguments⟩, hhelp, ?_⟩
        rw [hforce]
        exact iff_of_true (Or.inr rfl) (Or.inl List.mem_cons_self)
      · obtain ⟨g', hg', hechoes, hhelp, hforce⟩ := ih hrest (g.turnOn .verbose)
        refine ⟨g', hg', ⟨hechoes.fields, hechoes.arguments⟩, hhelp, ?_⟩
        rw [hforce, List.mem_cons, or_iff_right (by decide : ¬ "--force" = "--verbose")]
        rfl
      · obtain ⟨g', hg', hechoes, hhelp, hforce⟩ := ih hrest (g.turnOn .verbose)
        refine ⟨g', hg', ⟨hechoes.fields, hechoes.arguments⟩, hhelp, ?_⟩
        rw [hforce, List.mem_cons, or_iff_right (by decide : ¬ "--force" = "-v")]
        rfl

/-- **Switches that are added to a command line**, where an argument may begin, change nothing
else. -/
lemma readArguments_insert (hends : "--" ∉ before) (hbefore : readArguments before {} = .ok b)
    (hwords : words ⊆ switchWords) (h : readArguments (before ++ after) {} = .ok g) :
    ∃ g', readArguments (before ++ words ++ after) {} = .ok g' ∧ g'.Echoes g ∧
      g'.isOn .help = g.isOn .help ∧
      (g'.isOn .force = true ↔ "--force" ∈ words ∨ g.isOn .force = true) := by
  obtain ⟨s, hs, hechoes, hhelp, hforce⟩ := readArguments_switches hwords b
  have hall : "--" ∉ before ++ words := by
    rw [List.mem_append, not_or]
    exact ⟨hends, fun hmem => absurd (hwords hmem) (by decide)⟩
  have hfirst : readArguments (before ++ words) {} = .ok s := by
    rw [readArguments_append hends hbefore, hs]
  -- The rest is read over what came before it, with the switches or without.
  have hrest : ∀ g₀, readArguments after g₀ = (readArguments after {}).map (·.over g₀) :=
    readArguments_over after {}
  rw [readArguments_append hends hbefore, hrest, map_eq_ok] at h
  obtain ⟨r, hr, rfl⟩ := h
  refine ⟨r.over s, ?_, ⟨?_, ?_⟩, ?_, ?_⟩
  · rw [readArguments_append hall hfirst, hrest, hr]
    rfl
  · rw [Given.over, Given.over, hechoes.fields]
  · rw [Given.over, Given.over, hechoes.arguments]
  · rw [Given.isOn_over, Given.isOn_over, hhelp]
  · rw [Given.isOn_over, Given.isOn_over, Bool.or_eq_true, Bool.or_eq_true, hforce, or_left_comm]

end SchemaClasses.CommandLine
