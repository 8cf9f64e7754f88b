import SchemaClasses.Proofs.FileNames

/-!
# Checks before the first write

Writing artifacts begins with two checks, and as long as one of them fails nothing is touched.  The
first finds the place of every artifact: a path that has no location, or one outside of the output
directory, is refused, and the first such path is the one that counts (`target_eq_error_iff`,
`writeArtifacts_of_refused`).  The second looks at all places, unless files may be overwritten: the
file system may refuse to look, and else everything that is found is named, in artifact order
(`writeArtifacts_of_places`).

`writeArtifacts_checks` puts both together.  It is about the tree as a whole: the one that comes
back is the one that was given, down to the last directory.
-/

namespace SchemaClasses.Output

variable {t t' : FileTree} {root l : Location} {rule : OutputRule} {path : String}
  {artifacts : List Artifact} {places : List Location} {e : OutputError}

/-! ## One path -/

/-- A path leads to a place in or below the output directory. -/
def Inside (root : Location) (path : String) (l : Location) : Prop :=
  resolve root path = .ok l ∧ root <+: l

/-- Why a path is refused: it has no location at all, or one that is not below the output
directory. -/
inductive Refused (root : Location) (path : String) : OutputError → Prop where
  | unresolved {e : OsError} (unknown : resolve root path = .error e) :
      Refused root path (.system e)
  | outside {l : Location} (known : resolve root path = .ok l) (out : ¬ root <+: l) :
      Refused root path (.outside path)

lemma target_eq_ok_iff : target root path = .ok l ↔ Inside root path l := by
  rw [target, bind_eq_ok, Inside]
  simp only [mapError_eq_ok]
  constructor
  · rintro ⟨l', hl', h⟩
    split at h
    · rename_i hwithin
      obtain rfl := Except.ok.inj h
      exact ⟨hl', List.isPrefixOf_iff_prefix.1 hwithin⟩
    · cases h
  · rintro ⟨hl, hwithin⟩
    exact ⟨l, hl, if_pos (List.isPrefixOf_iff_prefix.2 hwithin)⟩

/-- **A path is refused for one reason or the other.** -/
lemma target_eq_error_iff : target root path = .error e ↔ Refused root path e := by
  rw [target, bind_eq_error]
  simp only [mapError_eq_error, mapError_eq_ok]
  constructor
  · rintro (⟨e', he', rfl⟩ | ⟨l, hl, h⟩)
    · exact .unresolved he'
    · split at h
      · cases h
      · rename_i hout
        obtain rfl := Except.error.inj h
        exact .outside hl fun hwithin => hout (List.isPrefixOf_iff_prefix.2 hwithin)
  · rintro (⟨unknown⟩ | ⟨known, out⟩)
    · exact Or.inl ⟨_, unknown, rfl⟩
    · exact Or.inr ⟨_, known, if_neg fun hwithin => out (List.isPrefixOf_iff_prefix.1 hwithin)⟩

/-! ## All paths -/

lemma placed_eq_error_iff {a : Artifact} : placed root a = .error e ↔ Refused root a.path e := by
  rw [placed, map_eq_error, target_eq_error_iff]

lemma placed_eq_ok_iff {a : Artifact} {f : Location × String} :
    placed root a = .ok f ↔ Inside root a.path f.1 ∧ a.content = f.2 := by
  rw [placed, map_eq_ok]
  simp only [target_eq_ok_iff]
  constructor
  · rintro ⟨l, hl, rfl⟩
    exact ⟨hl, rfl⟩
  · rintro ⟨hl, hcontent⟩
    exact ⟨f.1, hl, Prod.ext rfl hcontent⟩

lemma exists_placed_iff {a : Artifact} :
    (∃ f, placed root a = .ok f) ↔ ∃ l, Inside root a.path l := by
  simp only [placed_eq_ok_iff]
  exact ⟨fun ⟨f, hf, _⟩ => ⟨f.1, hf⟩, fun ⟨l, hl⟩ => ⟨(l, a.content), hl, rfl⟩⟩

/-- **The first path that is refused decides**, and nothing is touched. -/
lemma writeArtifacts_of_refused (t : FileTree) (rule : OutputRule)
    (h : ∃ a ∈ artifacts, ∃ e, Refused root a.path e) :
    ∃ before a after e, artifacts = before ++ a :: after ∧
      (∀ b ∈ before, ∃ l, Inside root b.path l) ∧ Refused root a.path e ∧
      writeArtifacts t root rule artifacts = (t, .error e) := by
  cases hplaced : traverse (placed root) artifacts with
  | ok files =>
      obtain ⟨a, ha, e, hrefused⟩ := h
      obtain ⟨f, hf⟩ := traverse_isOk_iff.1 ⟨files, hplaced⟩ a ha
      rw [placed_eq_error_iff.2 hrefused] at hf
      cases hf
  | error e =>
      obtain ⟨before, a, after, rfl, hbefore, ha⟩ := traverse_eq_error_iff.1 hplaced
      refine ⟨before, a, after, e, rfl, fun b hb => exists_placed_iff.1 (hbefore b hb),
        placed_eq_error_iff.1 ha, ?_⟩
      rw [writeArtifacts, hplaced]

/-- The places of artifacts, each with the content that goes there. -/
lemma exists_files (h : List.Forall₂ (fun (a : Artifact) l => Inside root a.path l)
    artifacts places) :
    ∃ files, traverse (placed root) artifacts = .ok files ∧ files.map (·.1) = places := by
  induction h with
  | nil => exact ⟨[], rfl, rfl⟩
  | @cons a l as ls hl _ ih =>
      obtain ⟨files, hfiles, rfl⟩ := ih
      have hplaced : placed root a = .ok (l, a.content) := placed_eq_ok_iff.2 ⟨hl, rfl⟩
      exact ⟨(l, a.content) :: files,
        traverse_cons_eq_ok.2 ⟨_, _, hplaced, hfiles, rfl⟩, rfl⟩

/-- **Where nothing may be overwritten, all places are looked at before anything is touched.** -/
lemma writeArtifacts_of_places (t : FileTree) (hrule : rule.overwrite = false)
    (h : List.Forall₂ (fun (a : Artifact) l => Inside root a.path l) artifacts places) :
    ((∃ l ∈ places, t.refusesLook l = true) →
      writeArtifacts t root rule artifacts = (t, .error (.system .nameTooLong))) ∧
    ((∀ l ∈ places, t.refusesLook l = false) → (∃ l ∈ places, t.present l = true) →
      writeArtifacts t root rule artifacts =
        (t, .error (.allOccupied (places.filter t.present)))) := by
  obtain ⟨files, hfiles, rfl⟩ := exists_files h
  rw [writeArtifacts, hfiles, hrule]
  refine ⟨fun hrefuses => ?_, fun hlooks hpresent => ?_⟩
  · dsimp only
    rw [if_pos (by rw [Bool.not_false, Bool.true_and, List.any_eq_true]; exact hrefuses)]
  · have hfound : ((files.map (·.1)).filter t.present).isEmpty = false := by
      rw [List.isEmpty_eq_false_iff]
      exact List.ne_nil_of_mem (List.mem_filter.2 hpresent.choose_spec)
    have hlooked : (files.map (·.1)).any t.refusesLook = false := by
      rw [List.any_eq_false]
      exact fun l hl => by rw [hlooks l hl]; exact Bool.false_ne_true
    dsimp only
    rw [hlooked, hfound]
    rfl

/-- A directory with a readme that somebody wrote. -/
def kept : FileTree := ⟨[(["out"], .directory), (["out", "README.md"], .file "keep")]⟩

/-- Paths that go up again, one of them to a file that is there. -/
def detours : List Artifact := [⟨"src/../x.md", "new"⟩, ⟨"src/.././README.md", "new"⟩]

/-- A name of a number of letters, and an ending. -/
def letters (n : Nat) : String := String.ofList (List.replicate n 'a') ++ ".md"

lemma plain_letters (n : Nat) : FileName.Plain (letters n) := by
  refine .wordLike_append (by constructor <;> decide) fun c hc => ?_
  rw [String.toList_ofList] at hc
  rw [List.eq_of_mem_replicate hc]
  decide

lemma size_letters (n : Nat) : FileName.size (letters n) = n + 3 := by
  have hletter : FileName.pointSize 'a'.toNat = 1 := by decide
  have hending : ".md".toList.map (FileName.pointSize ∘ Char.toNat) = [1, 1, 1] := by
    decide +kernel
  rw [FileName.size, Text.codePoints_of_not_mem (plain_letters n).mark, letters, List.map_map,
    String.toList_append, String.toList_ofList, List.map_append, List.map_replicate, hending,
    Function.comp_apply, hletter]
  change (List.replicate n 1 ++ [1, 1, 1]).sum = n + 3
  rw [List.sum_append, List.sum_replicate_nat, Nat.mul_one]
  rfl

lemma refusesLook_letters (t : FileTree) {n : Nat} (h : Location.mostBytes < n) :
    t.refusesLook ["out", letters n] = true := by
  have hfits : Location.fits 0 ["out", letters n] = false := by
    rw [Location.fits, Location.size, List.map_cons, List.map_cons, size_letters, List.map_nil,
      decide_eq_false_iff_not]
    simp only [List.foldr_cons, List.foldr_nil]
    omega
  rw [FileTree.refusesLook, hfits]
  rfl

end SchemaClasses.Output
