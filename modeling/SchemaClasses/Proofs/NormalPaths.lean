import Mathlib.Logic.Relation
import SchemaClasses.Proofs.Checks
import SchemaClasses.Proofs.SameTrees

/-!
# Normal forms of paths

Where a path leads can be told from its text alone.  Its parts are what stands between the slashes,
and they shorten one by one (`Location.Shortens`): a part that is no step goes, a name goes together
with the step up behind it, and from the root there is no way up.

* `normalForm_iff`: however the parts are shortened, they come to the same normal form, and it is
  what following them from the root gives.
* `normalForm_locate`: the location of a path is the normal form of its text, joined to the text of
  the directory that it is understood from, whether or not that text is normal itself.
* `placeBelow_normalForm`: below an output directory, a path is accepted exactly if its normal form
  begins with that of the directory, name by name.

The one thing that the text of a path does not show this way is a name that a file system cannot be
asked for.  It counts even where the path leads out of it again; see `placeBelow_of_halfName`.
-/

namespace SchemaClasses

open WrittenPath (isStep)

namespace Location

variable {here l : Location} {parts parts' : List String}

/-! ## Shortening -/

/-- One part of a way from the root is taken out, and a name with the step up that undoes it. -/
inductive Shortens : List String → List String → Prop where
  | blank (before after : List String) {name : String} (blank : isStep name = false) :
      Shortens (before ++ name :: after) (before ++ after)
  | back (before after : List String) {name : String} (step : isStep name = true)
      (forth : name ≠ up) : Shortens (before ++ name :: up :: after) (before ++ after)
  | top (after : List String) : Shortens (up :: after) after

/-- A way without empty parts, points and steps up. -/
def Normal (l : Location) : Prop := ∀ name ∈ l, isStep name = true ∧ name ≠ up

/-- What parts come to when they are shortened as far as possible. -/
structure NormalForm (parts : List String) (l : Location) : Prop where
  shortened : Relation.ReflTransGen Shortens parts l
  normal : l.Normal

lemma follow_append (here : Location) (names names' : List String) :
    follow here (names ++ names') = follow (follow here names) names' :=
  List.foldl_append

/-- Shortening changes nothing about where a way leads. -/
lemma Shortens.follow_eq (h : Shortens parts parts') :
    follow [] (parts.filter isStep) = follow [] (parts'.filter isStep) := by
  have hup : isStep up = true := rfl
  cases h with
  | blank before after blank =>
      rw [List.filter_append, List.filter_append, List.filter_cons_of_neg (by simp [blank])]
  | @back before after name step forth =>
      have hround : Location.step (Location.step (follow [] (before.filter isStep)) name) up =
          follow [] (before.filter isStep) := by
        rw [Location.step, if_pos rfl, Location.step, if_neg forth, List.dropLast_concat]
      rw [List.filter_append, List.filter_append, List.filter_cons_of_pos step,
        List.filter_cons_of_pos hup, follow_append, follow_append, follow_cons, follow_cons, hround]
  | top after =>
      rw [List.filter_cons_of_pos hup, follow_cons]
      rfl

lemma follow_eq_of_shortened (h : Relation.ReflTransGen Shortens parts parts') :
    follow [] (parts.filter isStep) = follow [] (parts'.filter isStep) := by
  induction h with
  | refl => rfl
  | tail _ hstep ih => exact ih.trans hstep.follow_eq

lemma Normal.up_not_mem (h : l.Normal) : up ∉ l := fun hmem => (h up hmem).2 rfl

lemma Normal.point_not_mem (h : l.Normal) : "." ∉ l := by
  intro hmem
  have hstep := (h "." hmem).1
  contradiction

lemma Normal.filter_eq (h : l.Normal) : l.filter isStep = l :=
  List.filter_eq_self.2 fun name hname => (h name hname).1

lemma Normal.follow_eq (h : l.Normal) : follow [] l = l := by
  rw [follow_of_not_mem h.up_not_mem, List.nil_append]

lemma normal_follow (h : here.Normal) (parts : List String) :
    (follow here (parts.filter isStep)).Normal := by
  intro name hname
  refine ⟨?_, fun hup => up_not_mem_follow _ h.up_not_mem (hup ▸ hname)⟩
  rcases mem_follow hname with hbefore | hafter
  · exact (h name hbefore).1
  · exact (List.mem_filter.1 hafter).2

/-- **Parts can be shortened to where they lead**, the first parts first. -/
lemma shortens_follow (h : here.Normal) (parts : List String) :
    Relation.ReflTransGen Shortens (here ++ parts) (follow here (parts.filter isStep)) := by
  induction parts generalizing here with
  | nil =>
      rw [List.append_nil]
      exact .refl
  | cons name rest ih =>
      by_cases hstep : isStep name = true
      · rw [List.filter_cons_of_pos hstep, follow_cons]
        by_cases hup : name = up
        · subst hup
          rw [step, if_pos rfl]
          -- A step up takes the last name with it, and the root has none.
          rcases List.eq_nil_or_concat here with rfl | ⟨before, last, rfl⟩
          · exact .head (.top rest) (ih h)
          · rw [List.concat_eq_append] at h ⊢
            rw [List.dropLast_concat, List.append_assoc, List.singleton_append]
            have hlast := h last (by simp)
            refine .head (.back before rest hlast.1 hlast.2) (ih fun name hname => ?_)
            exact h name (List.mem_append_left _ hname)
        · rw [step, if_neg hup]
          have hnext : Normal (here ++ [name]) := by
            intro other hother
            rcases List.mem_append.1 hother with hbefore | hlast
            · exact h other hbefore
            · rw [List.mem_singleton.1 hlast]
              exact ⟨hstep, hup⟩
          have hrest := ih hnext
          rwa [List.append_assoc, List.singleton_append] at hrest
      · rw [List.filter_cons_of_neg hstep]
        rw [Bool.not_eq_true] at hstep
        exact .head (.blank here rest hstep) (ih h)

/-- **A list of parts has one normal form**: where it leads. -/
theorem normalForm_iff : NormalForm parts l ↔ l = follow [] (parts.filter isStep) := by
  constructor
  · rintro ⟨hshortened, hnormal⟩
    rw [follow_eq_of_shortened hshortened, hnormal.filter_eq, hnormal.follow_eq]
  · rintro rfl
    have hroot : Normal [] := List.forall_mem_nil _
    exact ⟨shortens_follow hroot parts, normal_follow hroot parts⟩

lemma NormalForm.unique {l' : Location} (h : NormalForm parts l) (h' : NormalForm parts l') :
    l' = l :=
  (normalForm_iff.1 h').trans (normalForm_iff.1 h).symm

end Location

open Location (NormalForm follow normalForm_iff)

/-! ## Texts -/

namespace WrittenPath

/-- What stands between the slashes of a text. -/
def parts (s : String) : List String := (Text.splitAt '/' s.toList).map String.ofList

/-- The text of a path joined to that of a directory; a path from the root stays as it is. -/
def joined (directory path : String) : String :=
  if path.toList.head? = some '/' then path else directory ++ "/" ++ path

lemma names_ofText (s : String) : (ofText s).names = (parts s).filter isStep := rfl

lemma isAbsolute_ofText_iff {s : String} :
    (ofText s).isAbsolute = true ↔ s.toList.head? = some '/' := by
  have hkept : ∀ n, keptSlashes n = 0 ↔ n = 0 := by
    intro n
    rw [keptSlashes]
    split <;> omega
  rw [isAbsolute, decide_eq_true_iff, ofText, ne_eq, hkept]
  cases s.toList with
  | nil => simp
  | cons c rest => by_cases hc : c = '/' <;> simp [hc]

lemma parts_append (s t : String) : parts (s ++ "/" ++ t) = parts s ++ parts t := by
  have hslash : "/".toList = ['/'] := rfl
  rw [parts, String.toList_append, String.toList_append, hslash, List.append_assoc,
    List.singleton_append, Text.splitAt_append_cons, List.map_append, parts, parts]

lemma parts_intercalate {names : List String} (hne : names ≠ [])
    (h : ∀ name ∈ names, '/' ∉ name.toList) : parts ("/".intercalate names) = names := by
  rw [parts, splitAt_toList_intercalate hne h, List.map_map]
  simp [Function.comp_def]

end WrittenPath

open WrittenPath (parts joined)

namespace Location

variable {here l : Location}

/-- A location as a file system shows it: on the way there is no step but names, which hold no slash
and can be asked for. -/
structure Spelled (l : Location) : Prop where
  normal : l.Normal
  slash : ∀ name ∈ l, '/' ∉ name.toList
  asked : ∀ name ∈ l, OsError.ofNames? [name] = none

lemma isAbsolute_text (l : Location) : (WrittenPath.ofText l.text).isAbsolute = true := by
  rw [WrittenPath.isAbsolute_ofText_iff, text, String.toList_append]
  rfl

/-- The text of a location leads to it. -/
lemma Spelled.names_text (h : l.Spelled) : (WrittenPath.ofText l.text).names = l := by
  have htext : parts l.text = "" :: parts ("/".intercalate l) := by
    have happend := WrittenPath.parts_append "" ("/".intercalate l)
    rwa [String.empty_append] at happend
  rw [WrittenPath.names_ofText, htext, List.filter_cons_of_neg (by decide)]
  cases l with
  | nil => rfl
  | cons name rest =>
      rw [WrittenPath.parts_intercalate (List.cons_ne_nil name rest) h.slash, h.normal.filter_eq]

lemma Spelled.normalForm_text (h : l.Spelled) : NormalForm (parts l.text) l := by
  rw [normalForm_iff, ← WrittenPath.names_ofText, h.names_text, h.normal.follow_eq]

/-- **The location of a path is the normal form of its text**, joined to the text of the directory
that it is understood from. -/
theorem normalForm_locate {directory : String} (h : NormalForm (parts directory) here)
    (path : String) :
    NormalForm (parts (joined directory path)) ((WrittenPath.ofText path).locate here) := by
  rw [normalForm_iff, WrittenPath.locate, joined, WrittenPath.names_ofText]
  by_cases habsolute : path.toList.head? = some '/'
  · rw [if_pos (WrittenPath.isAbsolute_ofText_iff.2 habsolute), if_pos habsolute]
  · rw [if_neg (mt WrittenPath.isAbsolute_ofText_iff.1 habsolute), if_neg habsolute,
      WrittenPath.parts_append, List.filter_append, follow_append, ← normalForm_iff.1 h]

end Location

/-! ## Names that can be asked for -/

namespace Output

open Location (Spelled)

variable {here l r : Location} {path root : String} {e : OsError}

/-- Every name on a path can be asked for. -/
def Askable (path : String) : Prop :=
  ∀ name ∈ (WrittenPath.ofText path).names, OsError.ofNames? [name] = none

/-- The first name on a path that cannot be asked for, and why. -/
def Unaskable (path : String) (e : OsError) : Prop :=
  ∃ before name after, (WrittenPath.ofText path).names = before ++ name :: after ∧
    (∀ other ∈ before, OsError.ofNames? [other] = none) ∧ OsError.ofNames? [name] = some e

lemma resolve_of_askable (h : Askable path) :
    resolve here path = .ok ((WrittenPath.ofText path).locate here) := by
  rw [resolve, List.findSome?_eq_none_iff.2 h]

lemma resolve_of_unaskable (h : Unaskable path e) : resolve here path = .error e := by
  obtain ⟨before, name, after, hnames, hbefore, hname⟩ := h
  have hfirst : ((WrittenPath.ofText path).names.findSome? fun name =>
      OsError.ofNames? [name]) = some e := by
    rw [hnames, List.findSome?_append, List.findSome?_eq_none_iff.2 hbefore, Option.none_or,
      List.findSome?_cons, hname]
  rw [resolve, hfirst]

/-- Every path is of one kind or the other. -/
lemma askable_or_unaskable (path : String) : Askable path ∨ ∃ e, Unaskable path e := by
  cases hfirst : (WrittenPath.ofText path).names.findSome? fun name => OsError.ofNames? [name] with
  | none => exact Or.inl (List.findSome?_eq_none_iff.1 hfirst)
  | some e =>
      obtain ⟨before, name, after, hnames, hname, hbefore⟩ := List.findSome?_eq_some_iff.1 hfirst
      exact Or.inr ⟨e, before, name, after, hnames, hbefore, hname⟩

lemma spelled_locate (hhere : here.Spelled) (h : Askable path) :
    ((WrittenPath.ofText path).locate here).Spelled := by
  have hslash : ∀ name ∈ (WrittenPath.ofText path).names, '/' ∉ name.toList := by
    intro name hname
    obtain ⟨part, hpart, rfl⟩ := List.mem_map.1 (List.mem_filter.1 hname).1
    rw [String.toList_ofList]
    exact Text.not_mem_of_mem_splitAt hpart
  have hmem : ∀ name ∈ (WrittenPath.ofText path).locate here,
      name ∈ here ∨ name ∈ (WrittenPath.ofText path).names := by
    intro name hname
    rw [WrittenPath.locate] at hname
    rcases Location.mem_follow hname with hbefore | hafter
    · split at hbefore
      · cases hbefore
      · exact Or.inl hbefore
    · exact Or.inr hafter
  have hnormal := (Location.normalForm_locate hhere.normalForm_text path).normal
  refine ⟨hnormal, fun name hname => ?_, fun name hname => ?_⟩
  · exact (hmem name hname).elim (hhere.slash name) (hslash name)
  · exact (hmem name hname).elim (hhere.asked name) (h name)

/-- A path whose names can be asked for has a place, and its normal form is this place. -/
lemma exists_place {directory : String} (hhere : here.Spelled)
    (hform : NormalForm (parts directory) here) (h : Askable path) :
    ∃ l, resolve here path = .ok l ∧ l.Spelled ∧ NormalForm (parts (joined directory path)) l :=
  ⟨_, resolve_of_askable h, spelled_locate hhere h, Location.normalForm_locate hform path⟩

/-! ## Places below an output directory -/

/-- The place of a path below an output directory that was written somewhere itself. -/
def placeBelow (here : Location) (root path : String) : Except OutputError Location := do
  let r ← (resolve here root).mapError .system
  target r path

lemma placeBelow_of_resolve (h : resolve here root = .ok r) :
    placeBelow here root path = target r path := by
  rw [placeBelow, h]
  rfl

/-- The text of a place leads to the place again. -/
lemma inside_text (hl : l.Spelled) (h : r <+: l) : Inside r l.text l := by
  refine ⟨?_, h⟩
  rw [resolve_of_askable (by rw [Askable, hl.names_text]; exact hl.asked), WrittenPath.locate,
    if_pos (Location.isAbsolute_text l), hl.names_text, hl.normal.follow_eq]

/-- **A path is accepted exactly if its normal form is inside.**  Both the output directory and the
path have one normal form.  If that of the directory stands at the beginning of that of the path,
name by name, this is the place of the path, and the text of the place has the same place; else the
path is refused as leading out.  Before that, the first name that cannot be asked for is refused. -/
theorem placeBelow_normalForm (hhere : here.Spelled) (root path : String) :
    (∀ e, Unaskable root e → placeBelow here root path = .error (.system e)) ∧
    (Askable root → ∀ e, Unaskable path e → placeBelow here root path = .error (.system e)) ∧
    (Askable root → Askable path → ∃ r l,
      (∀ r', NormalForm (parts (joined here.text root)) r' ↔ r' = r) ∧
      (∀ l', NormalForm (parts (joined (joined here.text root) path)) l' ↔ l' = l) ∧
      (r <+: l → placeBelow here root path = .ok l ∧ "." ∉ l ∧ ".." ∉ l ∧
        placeBelow here root l.text = .ok l) ∧
      (¬ r <+: l → placeBelow here root path = .error (.outside path))) := by
  refine ⟨fun e he => ?_, fun hroot e he => ?_, fun hroot hpath => ?_⟩
  · rw [placeBelow, resolve_of_unaskable he]
    rfl
  · rw [placeBelow_of_resolve (resolve_of_askable hroot)]
    exact target_eq_error_iff.2 (.unresolved (resolve_of_unaskable he))
  · obtain ⟨r, hr, hspelled, hform⟩ := exists_place hhere hhere.normalForm_text hroot
    obtain ⟨l, hl, hlspelled, hlform⟩ := exists_place hspelled hform hpath
    refine ⟨r, l, fun r' => ⟨hform.unique, (· ▸ hform)⟩,
      fun l' => ⟨hlform.unique, (· ▸ hlform)⟩, fun hinside => ?_, fun hout => ?_⟩
    · rw [placeBelow_of_resolve hr, placeBelow_of_resolve hr, target_eq_ok_iff, target_eq_ok_iff]
      exact ⟨⟨hl, hinside⟩, hlspelled.normal.point_not_mem, hlspelled.normal.up_not_mem,
        inside_text hlspelled hinside⟩
    · rw [placeBelow_of_resolve hr, target_eq_error_iff]
      exact .outside hl hout

/-- Up and down again, over empty parts and points. -/
def detour : String := "a/../../out/./b//c"

/-- From a directory beside it, an output directory is found, and a detour below it; a directory
whose name only begins like it lies outside. -/
theorem placeBelow_of_detour :
    Location.Spelled ["home", "work"] ∧ Askable "../out" ∧ Askable detour ∧
    Askable "../outer/x" ∧
    placeBelow ["home", "work"] "../out" detour = .ok ["home", "out", "b", "c"] ∧
    placeBelow ["home", "work"] "../out" "/home/out/b/c" = .ok ["home", "out", "b", "c"] ∧
    placeBelow ["home", "work"] "../out" "../outer/x" = .error (.outside "../outer/x") := by
  have hhere : Location.Spelled ["home", "work"] :=
    ⟨by unfold Location.Normal; decide, by decide, by decide +kernel⟩
  have hroot : Askable "../out" := by unfold Askable; decide +kernel
  have hdetour : Askable detour := by unfold Askable; decide +kernel
  have houter : Askable "../outer/x" := by unfold Askable; decide +kernel
  obtain ⟨r, l, hr, hl, hinside, -⟩ :=
    (placeBelow_normalForm hhere "../out" detour).2.2 hroot hdetour
  obtain ⟨r', l', hr', hl', -, hout⟩ :=
    (placeBelow_normalForm hhere "../out" "../outer/x").2.2 hroot houter
  obtain rfl : ["home", "out"] = r := (hr _).1 (normalForm_iff.2 (by decide +kernel))
  obtain rfl : ["home", "out"] = r' := (hr' _).1 (normalForm_iff.2 (by decide +kernel))
  obtain rfl : ["home", "out", "b", "c"] = l := (hl _).1 (normalForm_iff.2 (by decide +kernel))
  obtain rfl : ["home", "outer", "x"] = l' := (hl' _).1 (normalForm_iff.2 (by decide +kernel))
  obtain ⟨hplace, -, -, hagain⟩ := hinside (by decide)
  exact ⟨hhere, hroot, hdetour, houter, hplace, hagain, hout (by decide)⟩

/-- A name that is half of a pair, which has no bytes. -/
def halfName : String := String.ofList (Text.encode [0xD800])

/-- **A path that leads inside need not be accepted**: a name without bytes cannot be asked for. -/
theorem placeBelow_of_halfName :
    Location.Spelled ["home"] ∧ FileName.hasNull halfName = false ∧
    NormalForm (parts (joined "/home" "out")) ["home", "out"] ∧
    NormalForm (parts (joined (joined "/home" "out") halfName)) ["home", "out", halfName] ∧
    ["home", "out"] <+: ["home", "out", halfName] ∧
    placeBelow ["home"] "out" halfName ≠ .ok ["home", "out", halfName] :=
  ⟨⟨by unfold Location.Normal; decide, by decide, by decide +kernel⟩, by decide +kernel,
    normalForm_iff.2 (by decide +kernel), normalForm_iff.2 (by decide +kernel), by decide,
    by decide +kernel⟩

end Output

end SchemaClasses
