import SchemaClasses.Proofs.ClassFiles

/-!
# One class does not stop another

A run goes over the classes of a model twice.  The first pass looks at their paths and stops at the
first class whose name cannot be shown or whose path was met before (`checkPaths_eq_error`).  The
second pass writes: it stops at the first class that fails for good (`writeAll_eq_error`), and else
every class ends up in one of two lists, as a file or as a failure, both in model order
(`artifacts_of_writeAll`, `failures_of_writeAll`).

`run_isolates` puts the passes together, for any way to name files and any writer.  What a class
contributes is a function of this class alone (`artifact?`, `failure?`), so no class can take
another out of the lists or change what stands there.
-/

namespace SchemaClasses.Generation

variable {ε : Type} {pathOf : ClassDef → String} {write : Writer ε} {classes seen : List ClassDef}
  {g : Generated ε}

/-! ## The check of the paths -/

/-- Classes with names that can be shown and with paths of their own. -/
def Placeable (pathOf : ClassDef → String) (classes : List ClassDef) : Prop :=
  (∀ c ∈ classes, ∃ name, c.type.shownName = .ok name) ∧
    classes.Pairwise fun c d => pathOf c ≠ pathOf d

/-- What is wrong with a class that comes after others: its name cannot be shown, or one of the
others has its path. -/
inductive Obstacle (pathOf : ClassDef → String) (before : List ClassDef) (c : ClassDef) :
    Failure → Prop where
  | unshown {l : ShowingLimit} (limit : c.type.shownName = .error (.unshown l)) :
      Obstacle pathOf before c (.unshown l)
  | taken {d : ClassDef} (shown : ∃ name, c.type.shownName = .ok name) (earlier : d ∈ before)
      (same : pathOf d = pathOf c) : Obstacle pathOf before c
        (.render (.duplicatePath d.type.qualifiedName c.type.qualifiedName (pathOf c)))

lemma checkPaths_nil_eq_ok {u : Unit} :
    checkPaths pathOf [] classes = .ok u ↔ Placeable pathOf classes := by
  rw [checkPaths_eq_ok, Placeable]
  simp

/-- A name is shown as it is, or the package of the class is beyond a limit. -/
lemma shownName_cases (c : ClassDef) :
    c.type.shownName = .ok c.type.qualifiedName ∨
      ∃ l, c.type.shownName = .error (.unshown l) := by
  have hname : c.type.shownName = c.package.shown.map fun _ => c.type.qualifiedName := rfl
  rw [hname, Scalar.shown]
  cases c.package.limit? with
  | none => exact Or.inl rfl
  | some l => exact Or.inr ⟨l, rfl⟩

/-- **The first class that is in the way stops the check.** -/
lemma checkPaths_eq_error {f : Failure} (hseen : Placeable pathOf seen)
    (h : checkPaths pathOf seen classes = .error f) :
    ∃ before c after, classes = before ++ c :: after ∧ Placeable pathOf (seen ++ before) ∧
      Obstacle pathOf (seen ++ before) c f := by
  induction classes generalizing seen with
  | nil => cases h
  | cons c rest ih =>
      rw [checkPaths] at h
      rcases shownName_cases c with hname | ⟨l, hlimit⟩
      · rw [hname] at h
        cases hfind : seen.find? fun d => pathOf d == pathOf c with
        | some d =>
            have hsame := List.find?_some hfind
            rw [beq_iff_eq] at hsame
            simp only [bind, Except.bind, hfind] at h
            refine ⟨[], c, rest, rfl, by rwa [List.append_nil], ?_⟩
            rw [← Except.error.inj h, List.append_nil]
            exact .taken ⟨_, hname⟩ (List.mem_of_find?_eq_some hfind) hsame
        | none =>
            simp only [bind, Except.bind, hfind] at h
            rw [List.find?_eq_none] at hfind
            have hnext : Placeable pathOf (seen ++ [c]) := by
              refine ⟨?_, List.pairwise_append.2 ⟨hseen.2, List.pairwise_singleton _ _, ?_⟩⟩
              · rw [List.forall_mem_append, List.forall_mem_singleton]
                exact ⟨hseen.1, _, hname⟩
              · intro d hd e he
                rw [List.mem_singleton.1 he]
                simpa using hfind d hd
            obtain ⟨before, d, after, rfl, hbefore, hobstacle⟩ := ih hnext h
            rw [List.append_assoc, List.singleton_append] at hbefore hobstacle
            exact ⟨c :: before, d, after, rfl, hbefore, hobstacle⟩
      · rw [hlimit] at h
        refine ⟨[], c, rest, rfl, by rwa [List.append_nil], ?_⟩
        rw [← Except.error.inj h]
        exact .unshown hlimit

/-! ## Writing -/

/-- The failure of a class, if it concerns this class only. -/
def failure? (write : Writer ε) (c : ClassDef) : Option (ClassFailure ε) :=
  match write c with
  | .error (.isolated e) => some ⟨c.name, e⟩
  | _ => none

lemma not_fatal_of_failure? {c : ClassDef} (h : (failure? write c).isSome = true)
    (e : RenderError) : write c ≠ .error (.fatal e) := by
  intro hfatal
  rw [failure?, hfatal] at h
  cases h

/-- No class fails for good. -/
def Writable (write : Writer ε) (classes : List ClassDef) : Prop :=
  ∀ c ∈ classes, ∀ e, write c ≠ .error (.fatal e)

/-- The classes that were left out stand in the order of the classes. -/
lemma failures_of_writeAll (h : writeAll pathOf write classes = .ok g) :
    g.failures = classes.filterMap (failure? write) := by
  induction classes generalizing g with
  | nil =>
      obtain rfl := Except.ok.inj h
      rfl
  | cons c rest ih =>
      rw [writeAll] at h
      rw [List.filterMap_cons]
      split at h
      · simp at h
      · rename_i e he
        obtain ⟨g', hrest, rfl⟩ := map_eq_ok.1 h
        rw [failure?, he, ← ih hrest]
        rfl
      · rename_i content hcontent
        obtain ⟨g', hrest, rfl⟩ := map_eq_ok.1 h
        rw [failure?, hcontent]
        exact ih (g := g') hrest

/-- **The first class that fails for good stops the writing.** -/
lemma writeAll_eq_error {e : RenderError} (h : writeAll pathOf write classes = .error e) :
    ∃ before c after, classes = before ++ c :: after ∧ Writable write before ∧
      write c = .error (.fatal e) := by
  induction classes with
  | nil => cases h
  | cons c rest ih =>
      have hnext : (∀ e, write c ≠ .error (.fatal e)) →
          writeAll pathOf write rest = .error e →
          ∃ before d after, c :: rest = before ++ d :: after ∧ Writable write before ∧
            write d = .error (.fatal e) := by
        intro hc hrest
        obtain ⟨before, d, after, rfl, hbefore, hd⟩ := ih hrest
        exact ⟨c :: before, d, after, rfl, List.forall_mem_cons.2 ⟨hc, hbefore⟩, hd⟩
      rw [writeAll] at h
      split at h
      · rename_i fatal hfatal
        rw [Except.error.inj h] at hfatal
        exact ⟨[], c, rest, rfl, List.forall_mem_nil _, hfatal⟩
      · rename_i f hf
        exact hnext (by simp [hf]) (map_eq_error.1 h)
      · rename_i content hcontent
        exact hnext (by simp [hcontent]) (map_eq_error.1 h)

lemma writable_of_writeAll (h : writeAll pathOf write classes = .ok g) :
    Writable write classes := by
  induction classes generalizing g with
  | nil => exact List.forall_mem_nil _
  | cons c rest ih =>
      rw [writeAll] at h
      split at h
      · cases h
      · rename_i f hf
        obtain ⟨g', hrest, -⟩ := map_eq_ok.1 h
        exact List.forall_mem_cons.2 ⟨by simp [hf], ih hrest⟩
      · rename_i content hcontent
        obtain ⟨g', hrest, -⟩ := map_eq_ok.1 h
        exact List.forall_mem_cons.2 ⟨by simp [hcontent], ih hrest⟩

/-- Where no class fails for good, every class becomes a file or a failure. -/
lemma length_add_length (h : Writable write classes) :
    (classes.filterMap (artifact? pathOf write)).length +
      (classes.filterMap (failure? write)).length = classes.length := by
  induction classes with
  | nil => rfl
  | cons c rest ih =>
      obtain ⟨hc, hrest⟩ := List.forall_mem_cons.1 h
      rw [List.filterMap_cons, List.filterMap_cons, artifact?, failure?, List.length_cons,
        ← ih hrest]
      cases hwrite : write c with
      | ok content => simp only [List.length_cons]; omega
      | error e =>
          cases e with
          | fatal e => exact absurd hwrite (hc e)
          | isolated e => simp only [List.length_cons]; omega

/-! ## Both passes -/

variable {m : ClassModel}

lemma run_of_placeable (h : Placeable pathOf m.classes) :
    run pathOf write m = (writeAll pathOf write m.classes).mapError .render := by
  have hcheck : checkPaths pathOf [] m.classes = .ok () := checkPaths_nil_eq_ok.2 h
  rw [run, hcheck]
  rfl

lemma run_of_not_placeable (write : Writer ε) (h : ¬ Placeable pathOf m.classes) :
    ∃ before c after f, m.classes = before ++ c :: after ∧ Placeable pathOf before ∧
      Obstacle pathOf before c f ∧ run pathOf write m = .error f := by
  cases hcheck : checkPaths pathOf [] m.classes with
  | ok u => exact absurd (checkPaths_nil_eq_ok.1 hcheck) h
  | error f =>
      obtain ⟨before, c, after, hclasses, hbefore, hobstacle⟩ :=
        checkPaths_eq_error ⟨List.forall_mem_nil _, .nil⟩ hcheck
      refine ⟨before, c, after, f, hclasses, hbefore, hobstacle, ?_⟩
      rw [run, hcheck]
      rfl

lemma run_of_not_writable (h : Placeable pathOf m.classes) (hfatal : ¬ Writable write m.classes) :
    ∃ before c after e, m.classes = before ++ c :: after ∧ Writable write before ∧
      write c = .error (.fatal e) ∧ run pathOf write m = .error (.render e) := by
  rw [run_of_placeable h]
  cases hwrite : writeAll pathOf write m.classes with
  | ok g => exact absurd (writable_of_writeAll hwrite) hfatal
  | error e =>
      obtain ⟨before, c, after, hclasses, hbefore, hc⟩ := writeAll_eq_error hwrite
      exact ⟨before, c, after, e, hclasses, hbefore, hc, rfl⟩

lemma run_of_writable (h : Placeable pathOf m.classes) (hwritable : Writable write m.classes) :
    ∃ g, run pathOf write m = .ok g ∧
      g.artifacts = m.classes.filterMap (artifact? pathOf write) ∧
      g.failures = m.classes.filterMap (failure? write) := by
  rw [run_of_placeable h]
  cases hwrite : writeAll pathOf write m.classes with
  | ok g => exact ⟨g, rfl, artifacts_of_writeAll hwrite, failures_of_writeAll hwrite⟩
  | error e =>
      obtain ⟨before, c, after, hclasses, -, hc⟩ := writeAll_eq_error hwrite
      have hmem : c ∈ m.classes := by
        rw [hclasses]
        exact List.mem_append_right _ List.mem_cons_self
      exact absurd hc (hwritable c hmem e)

/-- **A class that fails leaves its siblings alone.**  The first class that is in the way of the
paths stops the run, whatever writing would do; else the first class that fails for good does; else
every class is, in model order, either among the files or among the failures. -/
theorem run_isolates (pathOf : ClassDef → String) (write : Writer ε) (m : ClassModel) :
    (¬ Placeable pathOf m.classes →
      ∃ before c after f, m.classes = before ++ c :: after ∧ Placeable pathOf before ∧
        Obstacle pathOf before c f ∧ run pathOf write m = .error f) ∧
    (Placeable pathOf m.classes → ¬ Writable write m.classes →
      ∃ before c after e, m.classes = before ++ c :: after ∧ Writable write before ∧
        write c = .error (.fatal e) ∧ run pathOf write m = .error (.render e)) ∧
    (Placeable pathOf m.classes → Writable write m.classes →
      ∃ g, run pathOf write m = .ok g ∧
        g.artifacts = m.classes.filterMap (artifact? pathOf write) ∧
        g.failures = m.classes.filterMap (failure? write) ∧
        g.artifacts.length + g.failures.length = m.classes.length) := by
  refine ⟨run_of_not_placeable write, run_of_not_writable, fun hpaths hwritable => ?_⟩
  obtain ⟨g, hg, hartifacts, hfailures⟩ := run_of_writable hpaths hwritable
  exact ⟨g, hg, hartifacts, hfailures, by
    rw [hartifacts, hfailures, length_add_length hwritable]⟩

/-- A writer that fails on cats. -/
def dogWriter : Writer String := fun c =>
  if c.name = "Cat" then .error (.isolated "a cat") else .ok (c.name ++ ";")

def household : ClassModel :=
  ⟨["Animal", "Cat", "Owner"].map fun name => { name := name, package := .text "App" }⟩

theorem run_isolates_cat :
    Placeable (classPath .php "src") household.classes ∧ Writable dogWriter household.classes ∧
    ∃ g, run (classPath .php "src") dogWriter household = .ok g ∧
      g.artifacts = [⟨"src/Animal.class.php", "Animal;"⟩, ⟨"src/Owner.class.php", "Owner;"⟩] ∧
      g.failures = [⟨"Cat", "a cat"⟩] := by
  have hpaths : Placeable (classPath .php "src") household.classes := by
    refine ⟨fun c hc => ?_, by decide +kernel⟩
    obtain ⟨name, -, rfl⟩ := List.mem_map.1 hc
    exact ⟨_, rfl⟩
  have hwritable : Writable dogWriter household.classes := by
    intro c _ e
    rw [dogWriter]
    split <;> simp
  obtain ⟨g, hg, hartifacts, hfailures, -⟩ :=
    (run_isolates (classPath .php "src") dogWriter household).2.2 hpaths hwritable
  exact ⟨hpaths, hwritable, g, hg, hartifacts, hfailures⟩

/-! ## A package that cannot be shown -/

/-- The package of the only component is an integer with too many digits to be shown. -/
def vast : Entries Scalar Mapping := [
  (.text "A", [
    (.text "x-package", .scalar (.int (.ofNat (Nat.pow 10 4300)))),
    (.text "properties", .mapping [])])]

/-- **Classes with paths of their own, none of which fails for good, need not have a result**: the
name of one may be impossible to show. -/
theorem run_of_vast : ∃ m, ClassModel.ofDocument (.ofSchemas vast) (.text "App") {} .owner = .ok m ∧
    m.classes.map (classPath .php "src") = ["src/A.class.php"] ∧
    Writable (writer .php {}) m.classes ∧
    ∀ g, run (classPath .php "src") (writer .php {}) m ≠ .ok g := by
  obtain ⟨m, hm, hfacts⟩ : ∃ m,
      ClassModel.ofDocument (.ofSchemas vast) (.text "App") {} .owner = .ok m ∧
      (m.classes.map (classPath .php "src"),
        m.classes.all fun c => (failure? (writer .php {}) c).isSome,
        (run (classPath .php "src") (writer .php {}) m).isOk) =
          (["src/A.class.php"], true, false) := exists_ok_of_toOption (by decide +kernel)
  simp only [Prod.mk.injEq, List.all_eq_true] at hfacts
  obtain ⟨hpaths, hfailures, hrun⟩ := hfacts
  refine ⟨m, hm, hpaths, fun c hc => not_fatal_of_failure? (hfailures c hc), fun g hg => ?_⟩
  rw [hg] at hrun
  cases hrun

end SchemaClasses.Generation
