import Mathlib.Tactic.SplitIfs
import SchemaClasses.Files.Output
import SchemaClasses.Proofs.Outcome
import SchemaClasses.Proofs.TemporaryNames

/-!
# What writing leaves behind

The operations on a file tree are told apart by what can be read afterwards: `content?` at every
location.  Making directories changes no file (`content?_makeDirectory`); writing a file, in either
way, gives its location the new content and leaves every other file as it was
(`content?_of_write`, `content?_of_writePlain`).  That the temporary file takes no other file with it
when it goes rests on its name being new.

From one file to many it is an induction: after a run, a location holds what was written to it last
(`content?_of_writeAll`).  Artifacts with places of their own are therefore all there in the end
(`content?_of_writeArtifacts`).
-/

namespace SchemaClasses

namespace FileTree

variable {t t' : FileTree} {l l' : Location} {content : String}

/-! ## Looking after a change -/

lemma content?_of_node?_none (h : t.node? l = none) : t.content? l = none := by
  rw [content?, h]

lemma content?_put_file (h : l ≠ []) :
    (t.put l (.file content)).content? l' =
      if l.stored = l'.stored then some content else t.content? l' := by
  rw [content?, node?_put h]
  by_cases hsame : l.stored = l'.stored
  · rw [if_pos hsame, if_pos hsame]
  · rw [if_neg hsame, if_neg hsame, content?]

lemma content?_put_directory (h : l ≠ []) (hfree : t.node? l = none) :
    (t.put l .directory).content? l' = t.content? l' := by
  rw [content?, node?_put h]
  by_cases hsame : l.stored = l'.stored
  · rw [node?_congr hsame] at hfree
    rw [if_pos hsame, content?_of_node?_none hfree]
  · rw [if_neg hsame, content?]

lemma content?_remove (h : l ≠ []) :
    (t.remove l).content? l' = if l.stored = l'.stored then none else t.content? l' := by
  rw [content?, node?_remove h]
  by_cases hsame : l.stored = l'.stored
  · rw [if_pos hsame, if_pos hsame]
  · rw [if_neg hsame, if_neg hsame, content?]

/-! ## Directories -/

/-- Making directories changes no file, whether it comes to its end or not. -/
lemma content?_makeWay (t : FileTree) (here : Location) (made : Bool) (names : List String)
    (l : Location) : (t.makeWay here made names).1.content? l = t.content? l := by
  induction names generalizing t here made with
  | nil => rw [makeWay]
  | cons name rest ih =>
      rw [makeWay]
      dsimp only
      split
      · exact ih t here.dropLast made
      · split
        · exact ih t _ made
        · rename_i hnone
          split
          · rw [ih, content?_put_directory (by simp) hnone]
          · rfl
        · rfl

lemma location_of_makeWay {here : Location} {made : Bool} {names : List String}
    (h : t.makeWay here made names = (t', .ok l)) : l = Location.follow here names := by
  induction names generalizing t here made with
  | nil =>
      obtain ⟨-, h⟩ := Prod.mk.inj h
      exact (Except.ok.inj h).symm
  | cons name rest ih =>
      rw [makeWay] at h
      dsimp only at h
      rw [Location.follow_cons, Location.step]
      split at h
      · rename_i hup
        rw [if_pos hup]
        exact ih h
      · rename_i hup
        rw [if_neg hup]
        split at h
        · exact ih h
        · split at h
          · exact ih h
          · cases h
        · cases h

lemma content?_makeDirectory (t : FileTree) (names : List String) (l : Location) :
    (t.makeDirectory names).1.content? l = t.content? l := by
  rw [makeDirectory]
  split
  · rfl
  · split
    · rfl
    · split
      · rfl
      · exact content?_makeWay t [] false names l

lemma location_of_makeDirectory {names : List String}
    (h : t.makeDirectory names = (t', .ok l)) : l = Location.follow [] names := by
  rw [makeDirectory] at h
  split at h
  · cases h
  · split at h
    · cases h
    · split at h
      · cases h
      · exact location_of_makeWay h

/-! ## Files -/

lemma content?_of_writeFile (h : t.writeFile l content = (t', .ok ())) (l' : Location) :
    t'.content? l' = if l.stored = l'.stored then some content else t.content? l' := by
  rw [writeFile] at h
  split at h
  · cases h
  · rename_i hdirectory
    have hne : l ≠ [] := by
      rintro rfl
      exact hdirectory rfl
    split at h
    · cases h
    · split at h
      · cases h
      · obtain ⟨rfl, -⟩ := Prod.mk.inj h
        exact content?_put_file hne

lemma content?_of_renameFile {source : Location} (hsource : source ≠ [])
    (h : t.renameFile source l = (t', .ok ())) :
    ∃ content, t.content? source = some content ∧ ∀ l', t'.content? l' =
      if l.stored = l'.stored then some content
      else if source.stored = l'.stored then none else t.content? l' := by
  rw [renameFile] at h
  split at h
  · cases h
  · rename_i hdirectory
    have hne : l ≠ [] := by
      rintro rfl
      exact hdirectory rfl
    split at h
    · rename_i content hcontent
      obtain ⟨rfl, -⟩ := Prod.mk.inj h
      refine ⟨content, hcontent, fun l' => ?_⟩
      rw [content?_put_file hne, content?_remove hsource]
    · cases h

end FileTree

/-! ## Following names -/

lemma Location.follow_of_not_mem {here : Location} {names : List String}
    (h : Location.up ∉ names) : Location.follow here names = here ++ names := by
  induction names generalizing here with
  | nil => rw [follow_nil, List.append_nil]
  | cons name rest ih =>
      rw [List.mem_cons, not_or] at h
      rw [follow_cons, step, if_neg (Ne.symm h.1), ih h.2, List.append_assoc,
        List.singleton_append]

lemma Location.follow_eq {here : Location} {names : List String} {name : String}
    (hlast : names.getLast? = some name) (hname : name ≠ Location.up) :
    Location.follow here names = Location.follow here names.dropLast ++ [name] := by
  obtain ⟨before, rfl⟩ := List.getLast?_eq_some_iff.1 hlast
  rw [follow, List.foldl_append, List.foldl_cons, List.foldl_nil, step, if_neg hname,
    List.dropLast_concat, follow]

lemma Location.up_not_mem_follow {here : Location} (names : List String)
    (h : Location.up ∉ here) : Location.up ∉ Location.follow here names := by
  induction names generalizing here with
  | nil => exact h
  | cons name rest ih =>
      rw [follow_cons, step]
      split
      · exact ih fun hmem => h ((List.dropLast_sublist here).mem hmem)
      · rename_i hname
        refine ih ?_
        rw [List.mem_append, List.mem_singleton]
        rintro (hmem | heq)
        · exact h hmem
        · exact hname heq.symm

/-- A written path leads to a location that goes nowhere up. -/
lemma Output.up_not_mem_of_resolve {here l : Location} {path : String} (h : Location.up ∉ here)
    (hl : resolve here path = .ok l) : Location.up ∉ l := by
  rw [resolve] at hl
  split at hl
  · cases hl
  · rw [← Except.ok.inj hl, WrittenPath.locate]
    split
    · exact Location.up_not_mem_follow _ List.not_mem_nil
    · exact Location.up_not_mem_follow _ h

/-! ## One file -/

namespace Output

variable {t t' : FileTree} {names : List String} {content : String} {l target : Location}

/-- A file that is written through a temporary one is moved from there to its place. -/
lemma renameFile_of_replaceFile {directory : Location}
    (h : replaceFile t directory names content = (t', .ok ())) :
    ∃ name, names.getLast? = some name ∧ name ≠ Location.up ∧
      (t.put (directory ++ [t.temporaryName name]) (.file content)).renameFile
        (directory ++ [t.temporaryName name]) (directory ++ [name]) = (t', .ok ()) := by
  rw [replaceFile] at h
  dsimp only at h
  split at h
  · cases h
  · split_ifs at h with hlength hhalf hname hnames
    · cases h
    · cases h
    · cases h
    · cases h
    · rw [Bool.or_eq_true, not_or, decide_eq_true_eq, decide_eq_true_eq] at hname
      split at h
      · rename_i u hrename
        obtain ⟨rfl, -⟩ := Prod.mk.inj h
        cases hlast : names.getLast? with
        | none => exact absurd (by rw [hlast]; rfl) hname.1
        | some name =>
            rw [hlast] at hname hrename
            exact ⟨name, rfl, hname.2, hrename⟩
      · cases h

/-- **A file written through a temporary one is the only file that changes.** -/
theorem content?_of_write (h : write t names content = (t', .ok ())) (l : Location) :
    t'.content? l =
      if Location.stored (Location.follow [] names) = l.stored then some content
      else t.content? l := by
  rw [write] at h
  split at h
  · cases h
  · rename_i made directory hmade
    obtain rfl := FileTree.location_of_makeDirectory hmade
    obtain ⟨name, hlast, hname, hrename⟩ := renameFile_of_replaceFile h
    obtain ⟨written, hwritten, hall⟩ := FileTree.content?_of_renameFile (by simp) hrename
    have hput : ∀ l, (made.put (Location.follow [] names.dropLast ++ [made.temporaryName name])
        (.file content)).content? l = _ := fun l => FileTree.content?_put_file (by simp)
    have hfree := FileTree.node?_temporaryName made (Location.follow [] names.dropLast) name
    have hkept : made.content? l = t.content? l := by
      rw [← FileTree.content?_makeDirectory t names.dropLast l, hmade]
    rw [hput, if_pos rfl, Option.some.injEq] at hwritten
    rw [hall, hput, Location.follow_eq hlast hname, hwritten, hkept]
    split
    · rfl
    · split
      -- Where the temporary file stood there was nothing before.
      · rename_i hsame
        rw [FileTree.node?_congr hsame] at hfree
        rw [← hkept, FileTree.content?_of_node?_none hfree]
      · rfl

/-- A file written directly is the only file that changes. -/
theorem content?_of_writePlain (h : writePlain t target content = (t', .ok ())) (l : Location) :
    t'.content? l = if target.stored = l.stored then some content else t.content? l := by
  rw [writePlain] at h
  split at h
  · cases h
  · rename_i made directory hmade
    rw [FileTree.content?_of_writeFile h, ← FileTree.content?_makeDirectory t target.dropLast l,
      hmade]

/-! ## Many files -/

/-- The content that was written last to a location. -/
def lastWritten? (files : List (Location × String)) (l : Location) : Option String :=
  (files.reverse.find? fun f => f.1.stored == l.stored).map (·.2)

lemma lastWritten?_cons (f : Location × String) (rest : List (Location × String)) (l : Location) :
    lastWritten? (f :: rest) l =
      (lastWritten? rest l).or (if f.1.stored = l.stored then some f.2 else none) := by
  rw [lastWritten?, lastWritten?, List.reverse_cons, List.find?_append, Option.map_or,
    List.find?_singleton]
  by_cases hsame : f.1.stored = l.stored
  · rw [if_pos (beq_iff_eq.2 hsame), if_pos hsame, Option.map_some]
  · rw [if_neg (mt beq_iff_eq.1 hsame), if_neg hsame, Option.map_none]

/-- What a file holds in the end is what was written to it last, and else what it held before. -/
theorem content?_of_writeAll {atomic : Bool} {files : List (Location × String)}
    (hfiles : ∀ f ∈ files, Location.up ∉ f.1) (h : writeAll atomic t files = (t', .ok ()))
    (l : Location) : t'.content? l = (lastWritten? files l).or (t.content? l) := by
  induction files generalizing t with
  | nil =>
      obtain ⟨rfl, -⟩ := Prod.mk.inj h
      rfl
  | cons f rest ih =>
      obtain ⟨target, content⟩ := f
      obtain ⟨htarget, hrest⟩ := List.forall_mem_cons.1 hfiles
      rw [writeAll] at h
      split at h
      · rename_i written hwritten
        have hstep : written.content? l =
            if target.stored = l.stored then some content else t.content? l := by
          cases atomic with
          | true =>
              rw [content?_of_write hwritten, Location.follow_of_not_mem htarget, List.nil_append]
          | false => exact content?_of_writePlain hwritten l
        rw [ih hrest h, hstep, lastWritten?_cons, Option.or_assoc]
        split
        · rw [Option.some_or]
        · rw [Option.none_or]
      · cases h

/-- Among files in different places, each is the one that was written last to its place. -/
lemma lastWritten?_of_mem {files : List (Location × String)}
    (hdistinct : files.Pairwise fun f f' => f.1.stored ≠ f'.1.stored) (h : (l, content) ∈ files) :
    lastWritten? files l = some content := by
  induction files with
  | nil => cases h
  | cons f rest ih =>
      obtain ⟨hf, hrest⟩ := List.pairwise_cons.1 hdistinct
      rw [lastWritten?_cons]
      rcases List.mem_cons.1 h with rfl | h
      · have hnone : lastWritten? rest l = none := by
          rw [lastWritten?, Option.map_eq_none_iff, List.find?_eq_none]
          intro f hmem
          rw [beq_iff_eq]
          exact (hf f (List.mem_reverse.1 hmem)).symm
        rw [hnone, if_pos rfl, Option.none_or]
      · rw [ih hrest h, Option.some_or]

/-- Artifacts that are written are written to their places, in order. -/
lemma writeAll_of_writeArtifacts {root : Location} {rule : OutputRule} {artifacts : List Artifact}
    {places : List Location} (h : writeArtifacts t root rule artifacts = (t', .ok places)) :
    ∃ files, List.Forall₂ (fun (a : Artifact) f => Output.target root a.path = .ok f.1 ∧
        a.content = f.2) artifacts files ∧
      places = files.map (·.1) ∧ writeAll rule.atomic t files = (t', .ok ()) := by
  rw [writeArtifacts] at h
  split at h
  · cases h
  · rename_i files hplaced
    dsimp only at h
    split_ifs at h
    · cases h
    · cases h
    · split at h
      · rename_i written hwritten
        obtain ⟨rfl, hplaces⟩ := Prod.mk.inj h
        refine ⟨files, (traverse_eq_ok_iff.1 hplaced).imp ?_, (Except.ok.inj hplaces).symm,
          hwritten⟩
        intro a f hf
        obtain ⟨place, hplace, rfl⟩ := map_eq_ok.1 hf
        exact ⟨hplace, rfl⟩
      · cases h

lemma targets_of_writeArtifacts {root : Location} {rule : OutputRule} {artifacts : List Artifact}
    {places : List Location} (h : writeArtifacts t root rule artifacts = (t', .ok places)) :
    List.Forall₂ (fun (a : Artifact) l => Output.target root a.path = .ok l) artifacts places := by
  obtain ⟨files, hplaced, rfl, -⟩ := writeAll_of_writeArtifacts h
  rw [List.forall₂_map_right_iff]
  exact hplaced.imp fun _ _ hf => hf.1

/-- **After a run every artifact is in its place**, if no two of them have the same place. -/
theorem content?_of_writeArtifacts {root : Location} {rule : OutputRule}
    {artifacts : List Artifact} {places : List Location}
    (h : writeArtifacts t root rule artifacts = (t', .ok places))
    (hup : ∀ l ∈ places, Location.up ∉ l)
    (hdistinct : places.Pairwise fun l l' => l.stored ≠ l'.stored) :
    List.Forall₂ (fun (a : Artifact) l => t'.content? l = some a.content) artifacts places := by
  obtain ⟨files, hplaced, rfl, hwritten⟩ := writeAll_of_writeArtifacts h
  rw [List.forall_mem_map] at hup
  rw [List.pairwise_map] at hdistinct
  have hcontents : ∀ f ∈ files, t'.content? f.1 = some f.2 := by
    intro f hf
    rw [content?_of_writeAll hup hwritten, lastWritten?_of_mem hdistinct hf, Option.some_or]
  rw [List.forall₂_map_right_iff]
  refine (forall₂_and_right.2 ⟨hplaced, hcontents⟩).imp ?_
  rintro a f ⟨⟨-, hcontent⟩, hf⟩
  rw [hf, hcontent]

lemma writeAll_ne_outside (atomic : Bool) (t : FileTree) (files : List (Location × String))
    (path : String) : (writeAll atomic t files).2 ≠ .error (.outside path) := by
  induction files generalizing t with
  | nil => simp [writeAll]
  | cons f rest ih =>
      rw [writeAll]
      split
      · exact ih _
      · simp

/-- What has a place below the output directory is not refused for its path. -/
lemma writeArtifacts_ne_outside {root : Location} {artifacts : List Artifact}
    {places : List Location}
    (hplaces : List.Forall₂ (fun (a : Artifact) l => Output.target root a.path = .ok l)
      artifacts places)
    (t : FileTree) (rule : OutputRule) (path : String) :
    (writeArtifacts t root rule artifacts).2 ≠ .error (.outside path) := by
  have hplaced : ∃ files, traverse (placed root) artifacts = .ok files := by
    refine traverse_isOk_iff.2 fun a ha => ?_
    obtain ⟨l, -, hl⟩ := forall₂_left hplaces ha
    exact ⟨(l, a.content), by rw [placed, hl]; rfl⟩
  obtain ⟨files, hplaced⟩ := hplaced
  have hwritten := writeAll_ne_outside rule.atomic t files path
  rw [writeArtifacts, hplaced]
  dsimp only
  split_ifs
  · simp
  · simp
  · split
    · simp
    · rename_i e he
      rw [he] at hwritten
      simpa using hwritten

end Output

end SchemaClasses
