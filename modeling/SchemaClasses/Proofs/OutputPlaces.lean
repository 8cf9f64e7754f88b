import SchemaClasses.Proofs.ClassFiles
import SchemaClasses.Proofs.FileNames

/-!
# Where the files of a project go

A class file lies in the source directory, under a plain name made from the name of its class, and a
project file lies beside that directory (`Language.Way`).  Such ways lead neither out of the output
directory nor through one another (`Language.Way.eq_of_prefix`), and no two artifacts of a run share
a path (`Generation.nodup_paths`).  So the files of a run do not get into each other's way, wherever
they are written and whatever stood there before: once they are written, every file holds what was
meant for it (`Generation.written_of_ofDocument`).
-/

namespace SchemaClasses

/-! ## Ways below an output directory -/

/-- The ways from an output directory to the files of a project. -/
inductive Language.Way (language : Language) : List String → Prop where
  | classFile {name : String} (plain : FileName.Plain name) :
      Way language [language.sourceDirectory, name]
  | projectFile {file : String} (listed : file ∈ language.projectFiles) : Way language [file]

namespace Language.Way

variable {language : Language} {way way' : List String}

lemma ne_nil (h : language.Way way) : way ≠ [] := by
  cases h <;> exact List.cons_ne_nil _ _

lemma plain (h : language.Way way) : ∀ name ∈ way, FileName.Plain name := by
  cases h with
  | classFile plain =>
      rw [List.forall_mem_cons, List.forall_mem_singleton]
      exact ⟨FileName.plain_sourceDirectory language, plain⟩
  | projectFile listed =>
      rw [List.forall_mem_singleton]
      exact FileName.plain_of_mem_projectFiles listed

/-- **A way to one file never leads through another.** -/
lemma eq_of_prefix (h : language.Way way) (h' : language.Way way') (hbefore : way <+: way') :
    way = way' := by
  cases h with
  | classFile plain =>
      cases h' with
      | classFile plain' => simpa using hbefore
      | projectFile listed' => simp at hbefore
  | projectFile listed =>
      cases h' with
      | classFile plain' =>
          -- A project file in the place of the source directory would be in the way.
          have hfree : language.sourceDirectory ∉ language.projectFiles := by
            cases language <;> decide
          obtain ⟨rfl, -⟩ := List.cons_prefix_cons.1 hbefore
          exact absurd listed hfree
      | projectFile listed' => simpa using hbefore

/-- Different ways have different paths. -/
lemma eq_of_intercalate (h : language.Way way) (h' : language.Way way')
    (heq : "/".intercalate way = "/".intercalate way') : way = way' := by
  have hnames := WrittenPath.ofText_intercalate h.ne_nil h.plain
  rw [heq, WrittenPath.ofText_intercalate h'.ne_nil h'.plain] at hnames
  exact (WrittenPath.mk.inj hnames).2.symm

lemma up_not_mem (h : language.Way way) {root : Location} (hroot : Location.up ∉ root) :
    Location.up ∉ root ++ way := by
  rw [List.mem_append]
  rintro (hmem | hmem)
  · exact hroot hmem
  · exact (h.plain _ hmem).ne_up rfl

end Language.Way

/-- Neither of two locations is the other or leads through it. -/
def Location.Apart (l l' : Location) : Prop := ¬ l.stored <+: l'.stored ∧ ¬ l'.stored <+: l.stored

namespace Location

variable {l l' root : Location} {names : List String}

lemma Apart.stored_ne (h : l.Apart l') : l.stored ≠ l'.stored := by
  intro heq
  rw [Apart, heq] at h
  exact h.1 (List.prefix_refl _)

lemma stored_append_of_plain (h : ∀ name ∈ names, FileName.Plain name) :
    stored (root ++ names) = stored root ++ names := by
  have hnames : names.map FileName.stored = names.map id :=
    List.map_congr_left fun name hname => (h name hname).stored_eq
  rw [stored, List.map_append, hnames, List.map_id, stored]

/-- Different ways of a project lead to places apart. -/
lemma apart_iff_of_way {language : Language} {way way' : List String} (h : language.Way way)
    (h' : language.Way way') : Apart (root ++ way) (root ++ way') ↔ way ≠ way' := by
  rw [Apart, stored_append_of_plain h.plain, stored_append_of_plain h'.plain,
    List.prefix_append_right_inj, List.prefix_append_right_inj]
  constructor
  · rintro ⟨hnot, -⟩ rfl
    exact hnot (List.prefix_refl _)
  · intro hne
    exact ⟨fun hbefore => hne (h.eq_of_prefix h' hbefore),
      fun hbefore => hne (h'.eq_of_prefix h hbefore).symm⟩

end Location

/-! ## The files of a run -/

lemma ClassModel.exists_name_of_mem {doc : Document} {home : Value} {registry : TypeRegistry}
    {accessibility : Accessibility} {m : ClassModel} (hdoc : doc.TextKeyed)
    (h : ofDocument doc home registry accessibility = .ok m) {d : ClassDef} (hd : d ∈ m.classes) :
    ∃ key, d.name = Text.pascalCase key := by
  obtain ⟨schemas, components, -, hblueprint, hall⟩ := blueprint_of_ofDocument hdoc h
  obtain ⟨c, hc, ancestors, hrealizes⟩ := forall₂_right hall hd
  obtain ⟨entry, -, hdescribes, -⟩ := forall₂_right hblueprint.described hc
  exact ⟨c.key, by rw [hrealizes.assembled.name, hdescribes.className]⟩

namespace Generation

variable {doc : Document} {registry : TypeRegistry} {language : Language} {settings : Settings}
  {g : Generated Failure}

lemma pathIn_eq_intercalate (language : Language) (c : ClassDef) : pathIn language c =
    "/".intercalate [language.sourceDirectory, language.fileName c.name] := by
  rw [pathIn_eq, String.intercalate_cons_cons, String.intercalate_singleton]

lemma way_of_mem_classes {m : ClassModel} (hdoc : doc.TextKeyed)
    (hm : modelOf doc registry settings = .ok m) {c : ClassDef} (hc : c ∈ m.classes) :
    language.Way [language.sourceDirectory, language.fileName c.name] := by
  obtain ⟨key, hname⟩ := ClassModel.exists_name_of_mem hdoc hm hc
  rw [hname]
  exact .classFile (FileName.plain_fileName language key)

/-- Every file of a run has a way of the project. -/
lemma exists_way (hdoc : doc.TextKeyed) (h : ofDocument doc registry language settings = .ok g)
    {a : Artifact} (ha : a ∈ g.artifacts) :
    ∃ way, language.Way way ∧ a.path = "/".intercalate way := by
  obtain ⟨m, files, hm, -, hfiles, hartifacts⟩ := ofDocument_eq_ok h
  rw [hartifacts] at ha
  rcases path_of_mem hfiles ha with ⟨c, hc, hpath⟩ | hlisted
  · exact ⟨_, way_of_mem_classes hdoc hm hc, by rw [hpath, pathIn_eq_intercalate]⟩
  · exact ⟨[a.path], .projectFile hlisted, String.intercalate_singleton.symm⟩

/-- **No two files of a run have the same path.** -/
theorem nodup_paths (hdoc : doc.TextKeyed)
    (h : ofDocument doc registry language settings = .ok g) :
    (g.artifacts.map (·.path)).Nodup := by
  obtain ⟨m, files, hm, hnames, hfiles, hartifacts⟩ := ofDocument_eq_ok h
  have hclasses : ((m.classes.filterMap
      (artifact? (pathIn language) (writer language settings))).map (·.path)).Nodup := by
    rw [List.Nodup, List.pairwise_map, List.pairwise_filterMap]
    refine hnames.imp fun {c d} hne a ha b hb hpath => hne ?_
    rw [path_of_artifact? ha, path_of_artifact? hb] at hpath
    exact name_of_classPath hpath
  have hproject : (files.map (·.path)).Nodup := by
    rw [hfiles]
    cases language <;> decide
  rw [hartifacts, List.map_append, List.nodup_append]
  refine ⟨hclasses, hproject, ?_⟩
  rintro path hclass file hfile rfl
  obtain ⟨a, ha, rfl⟩ := List.mem_map.1 hclass
  obtain ⟨c, hc, ha⟩ := List.mem_filterMap.1 ha
  rw [hfiles] at hfile
  have hways := (way_of_mem_classes hdoc hm hc).eq_of_intercalate (.projectFile hfile)
    (by rw [← pathIn_eq_intercalate, ← path_of_artifact? ha, String.intercalate_singleton])
  simp at hways

/-- Below any output directory, the files of a run have places apart. -/
lemma exists_places (hdoc : doc.TextKeyed)
    (h : ofDocument doc registry language settings = .ok g) (root : Location) :
    ∃ places : List Location,
      List.Forall₂ (fun (a : Artifact) l => Output.target root a.path = .ok l ∧
        ∃ way, language.Way way ∧ l = root ++ way) g.artifacts places ∧
      places.Pairwise Location.Apart := by
  have hways : ∃ ways, List.Forall₂ (fun (a : Artifact) way =>
      language.Way way ∧ a.path = "/".intercalate way) g.artifacts ways :=
    exists_forall₂_iff.2 fun a ha => exists_way hdoc h ha
  obtain ⟨ways, hways⟩ := hways
  refine ⟨ways.map (root ++ ·), List.forall₂_map_right_iff.2 (hways.imp ?_),
    List.pairwise_map.2 ((pairwise_iff_of_forall₂ hways ?_).1
      (List.pairwise_map.1 (nodup_paths hdoc h)))⟩
  · rintro a way ⟨hway, hpath⟩
    exact ⟨by rw [hpath, Output.target_intercalate root hway.ne_nil hway.plain], way, hway, rfl⟩
  · rintro a way a' way' ⟨hway, hpath⟩ ⟨hway', hpath'⟩
    rw [Location.apart_iff_of_way hway hway', hpath, hpath']
    exact not_congr ⟨hway.eq_of_intercalate hway', congrArg _⟩

/-- **The files of a run do not get into each other's way.**  Below any output directory every file
has its place on a way of the project, and no place is another or leads through it.  So no artifact
is refused for its path, and once all are written, each place holds the content of its artifact. -/
theorem written_of_ofDocument (hdoc : doc.TextKeyed)
    (h : ofDocument doc registry language settings = .ok g) {root : Location}
    (hroot : Location.up ∉ root) :
    ∃ places : List Location,
      List.Forall₂ (fun (a : Artifact) l => Output.target root a.path = .ok l ∧
        ∃ way, language.Way way ∧ l = root ++ way) g.artifacts places ∧
      places.Pairwise Location.Apart ∧
      ∀ (t : FileTree) (rule : OutputRule),
        (∀ path, (Output.writeArtifacts t root rule g.artifacts).2 ≠ .error (.outside path)) ∧
        ∀ t' written, Output.writeArtifacts t root rule g.artifacts = (t', .ok written) →
          written = places ∧
          List.Forall₂ (fun (a : Artifact) l => t'.content? l = some a.content)
            g.artifacts places := by
  obtain ⟨places, hplaces, hapart⟩ := exists_places hdoc h root
  have htargets : List.Forall₂ (fun (a : Artifact) l => Output.target root a.path = .ok l)
      g.artifacts places := hplaces.imp fun _ _ hl => hl.1
  have hup : ∀ l ∈ places, Location.up ∉ l := by
    intro l hl
    obtain ⟨a, -, -, way, hway, rfl⟩ := forall₂_right hplaces hl
    exact hway.up_not_mem hroot
  refine ⟨places, hplaces, hapart, fun t rule =>
    ⟨Output.writeArtifacts_ne_outside htargets t rule, fun t' written hwritten => ?_⟩⟩
  obtain rfl : written = places :=
    Except.ok.inj ((traverse_eq_ok_iff.2 (Output.targets_of_writeArtifacts hwritten)).symm.trans
      (traverse_eq_ok_iff.2 htargets))
  exact ⟨rfl, Output.content?_of_writeArtifacts hwritten hup (hapart.imp Location.Apart.stored_ne)⟩

/-! ## Keys that look like paths -/

def pathlike : Entries Scalar Mapping :=
  [(.text "../x", []), (.text "a/ﬁ", [])]

lemma exists_written_pathlike : ∃ g t, ofDocument (.ofSchemas pathlike) {} .php {} = .ok g ∧
    Output.writeArtifacts {} ["home", "out"] {} g.artifacts = (t, .ok
      [["home", "out", "src", "X.class.php"], ["home", "out", "src", "AFI.class.php"],
        ["home", "out", "README.md"], ["home", "out", "composer.json"]]) := by
  obtain ⟨g, hg, hplaces⟩ : ∃ g, ofDocument (.ofSchemas pathlike) {} .php {} = .ok g ∧
      (Output.writeArtifacts {} ["home", "out"] {} g.artifacts).2.toOption = some
        [["home", "out", "src", "X.class.php"], ["home", "out", "src", "AFI.class.php"],
          ["home", "out", "README.md"], ["home", "out", "composer.json"]] :=
    exists_ok_of_toOption (by decide +kernel)
  exact ⟨g, _, hg, Prod.ext rfl (toOption_eq_some.1 hplaces)⟩

theorem written_of_pathlike :
    (Document.ofSchemas pathlike).TextKeyed ∧
    ∃ root, Output.resolve ["home", "work"] "../out" = .ok root ∧ Location.up ∉ root ∧
    ∃ g t places, ofDocument (.ofSchemas pathlike) {} .php {} = .ok g ∧
      Output.writeArtifacts {} root {} g.artifacts = (t, .ok places) ∧
      places = [["home", "out", "src", "X.class.php"], ["home", "out", "src", "AFI.class.php"],
        ["home", "out", "README.md"], ["home", "out", "composer.json"]] ∧
      List.Forall₂ (fun (a : Artifact) l => t.content? l = some a.content) g.artifacts places := by
  have hkeyed : (Document.ofSchemas pathlike).TextKeyed := by decide
  have hroot : Output.resolve ["home", "work"] "../out" = .ok ["home", "out"] := by
    decide +kernel
  have hup : Location.up ∉ ["home", "out"] := Output.up_not_mem_of_resolve (by decide) hroot
  obtain ⟨g, t, hg, hwritten⟩ := exists_written_pathlike
  obtain ⟨places, -, -, hall⟩ := written_of_ofDocument hkeyed hg hup
  obtain ⟨rfl, hcontents⟩ := (hall {} {}).2 t _ hwritten
  exact ⟨hkeyed, _, hroot, hup, g, t, _, hg, hwritten, rfl, hcontents⟩

end Generation

end SchemaClasses
