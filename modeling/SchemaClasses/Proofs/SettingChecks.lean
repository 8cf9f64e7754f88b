import Mathlib.Tactic.Lemma
import SchemaClasses.Proofs.Outcome
import SchemaClasses.Settings

/-!
# The check of settings

A draft becomes settings by a check that takes most of it over as it is.  `Draft.Passes` says what
the two have in common, and `Draft.check_eq_ok` that this is all there is to the check.  The one
thing that is read here is the output mode: a text is one of two words, and what is no text is a mode
of its own (`readMode_text_eq_ok`, `eq_text_of_readMode`).
-/

namespace SchemaClasses.Settings

variable {d : Draft} {c : Settings} {v : Value}

/-! ## Modes -/

/-- A text is read as the mode of this word. -/
lemma readMode_text_eq_ok {word : String} {mode : OutputMode} :
    readMode (.text word) = .ok mode ↔ mode.word? = some word := by
  constructor
  · intro h
    unfold readMode at h
    split at h
    · rename_i hword
      obtain rfl := Except.ok.inj h
      exact congrArg some (Scalar.text.inj (Value.scalar.inj hword)).symm
    · rename_i hword
      obtain rfl := Except.ok.inj h
      exact congrArg some (Scalar.text.inj (Value.scalar.inj hword)).symm
    · cases h
    · rename_i hother
      exact absurd rfl (hother word)
  · intro h
    cases mode with
    | error => obtain rfl := Option.some.inj h; rfl
    | force => obtain rfl := Option.some.inj h; rfl
    | other v => cases h

/-- A value that is read as the mode of a word is this word. -/
lemma eq_text_of_readMode {word : String} {mode : OutputMode} (h : readMode v = .ok mode)
    (hword : mode.word? = some word) : v = .text word := by
  unfold readMode at h
  split at h
  · obtain rfl := Except.ok.inj h
    obtain rfl := Option.some.inj hword
    rfl
  · obtain rfl := Except.ok.inj h
    obtain rfl := Option.some.inj hword
    rfl
  · cases h
  · obtain rfl := Except.ok.inj h
    cases hword

/-! ## Drafts -/

/-- What settings take over from a draft that passes the check. -/
structure Draft.Passes (d : Draft) (c : Settings) : Prop where
  checkable : d.checkable = true
  modelsNamespace : d.modelsNamespace = c.modelsNamespace
  named : c.modelsNamespace.truthy = true
  servicesNamespace : d.servicesNamespace = c.servicesNamespace
  server : d.server = c.server
  defaultAccessibility :
    Accessibility.ofValue? d.defaultAccessibility = some c.defaultAccessibility
  addGenerationComment : d.addGenerationComment = c.addGenerationComment
  generationCommand : d.generationCommand = c.generationCommand
  output : ∃ mode, d.output = .fields mode c.atomicWrite ∧ readMode mode = .ok c.outputMode
  describable : d.describable = c.describable

lemma Draft.check_eq_ok : d.check = .ok c ↔ d.Passes c := by
  constructor
  · intro h
    unfold Draft.check at h
    split at h
    · cases h
    · rename_i hcheckable
      split at h
      · cases h
      · rename_i accessibility haccessibility
        split at h
        · cases h
        · rename_i hnamed
          split at h
          · cases h
          · rename_i mode atomicWrite houtput
            split at h
            · cases h
            · rename_i outputMode hmode
              obtain rfl := Except.ok.inj h
              rw [Bool.not_eq_true, Bool.not_eq_false'] at hcheckable hnamed
              exact ⟨hcheckable, rfl, hnamed, rfl, rfl, haccessibility, rfl, rfl,
                ⟨mode, houtput, hmode⟩, rfl⟩
  · rintro ⟨hcheckable, hmodels, hnamed, hservices, hserver, haccessibility, hcomment, hcommand,
      ⟨mode, houtput, hmode⟩, hdescribable⟩
    rw [Draft.check, hcheckable, haccessibility, hmodels, hnamed, houtput]
    dsimp only
    rw [hmode, hservices, hserver, hcomment, hcommand, hdescribable]
    rfl

end SchemaClasses.Settings
