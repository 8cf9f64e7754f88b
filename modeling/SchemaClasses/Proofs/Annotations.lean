import SchemaClasses.Proofs.Discriminator
import SchemaClasses.Proofs.Plans

/-!
# Reading annotations back

The annotations of a class quote texts of the document: the field that holds the discriminator, its
values, and in PHP the packages of the classes that they select.  Nothing is escaped, so a quotation
mark in one of them ends it too early, and one subclass can be written like two
(`annotations_of_alone`).  Without quotation marks (`Language.Quotable`) the annotations of a class
say which field and which selections they were made from (`annotations_inj`).

Both languages are read in the same way.  A writer is `Delimited` if one can tell where it ends,
whatever comes after it.  A text is delimited by the quotation mark behind it; two delimited texts
in a row are delimited again, and many of them between marks can be told apart
(`Delimited.marked_inj`).  What remains for a language is to cut its annotations into such pieces.
In C# a class name is not quoted itself, but the first quotation mark after it belongs to its value.
-/

namespace SchemaClasses

/-! ## Delimited texts -/

namespace Text

/-- The text holds no quotation mark. -/
def Unquoted (s : String) : Prop := '"' ∉ s.toList

instance (s : String) : Decidable (Unquoted s) := inferInstanceAs (Decidable ('"' ∉ s.toList))

variable {α β : Type} {write : α → String} {write' : β → String} {p : α → Prop} {q : β → Prop}

/-- Whatever comes after a text that was written, one can tell where it ends. -/
structure Delimited (write : α → String) (p : α → Prop) : Prop where
  cancel : ∀ {a b : α} {s t : String}, p a → p b → write a ++ s = write b ++ t → a = b ∧ s = t

/-- A text ends at the first quotation mark behind it. -/
lemma delimited_quoted : Delimited (· ++ "\"") Unquoted := by
  refine ⟨fun {a b s t} ha hb h => ?_⟩
  have hchars := congrArg String.toList h
  simp only [String.toList_append, List.append_assoc] at hchars
  change a.toList ++ '"' :: s.toList = b.toList ++ '"' :: t.toList at hchars
  have hsplit := congrArg (splitAt '"') hchars
  rw [splitAt_append _ ha, splitAt_append _ hb] at hsplit
  obtain rfl := String.toList_inj.1 (List.cons.inj hsplit).1
  exact ⟨rfl, String.toList_inj.1 (List.cons.inj (List.append_cancel_left hchars)).2⟩

namespace Delimited

lemma after (h : Delimited write p) (c : String) : Delimited (fun a => c ++ write a) p := by
  refine ⟨fun ha hb heq => ?_⟩
  rw [String.append_assoc, String.append_assoc] at heq
  exact h.cancel ha hb ((String.append_right_inj c).1 heq)

lemma before (h : Delimited write p) (c : String) : Delimited (fun a => write a ++ c) p := by
  refine ⟨fun ha hb heq => ?_⟩
  rw [String.append_assoc, String.append_assoc] at heq
  obtain ⟨rfl, hrest⟩ := h.cancel ha hb heq
  exact ⟨rfl, (String.append_right_inj c).1 hrest⟩

lemma pair (h : Delimited write p) (h' : Delimited write' q) :
    Delimited (fun e : α × β => write e.1 ++ write' e.2) fun e => p e.1 ∧ q e.2 := by
  refine ⟨fun ⟨ha, hb⟩ ⟨ha', hb'⟩ heq => ?_⟩
  rw [String.append_assoc, String.append_assoc] at heq
  obtain ⟨hfirst, hrest⟩ := h.cancel ha ha' heq
  obtain ⟨hsecond, hend⟩ := h'.cancel hb hb' hrest
  exact ⟨Prod.ext hfirst hsecond, hend⟩

lemma comp (h : Delimited write p) {f : β → α} (hf : Function.Injective f) :
    Delimited (fun b => write (f b)) fun b => p (f b) := by
  refine ⟨fun ha hb heq => ?_⟩
  obtain ⟨hsame, hrest⟩ := h.cancel ha hb heq
  exact ⟨hf hsame, hrest⟩

end Delimited

/-- Texts with a mark before each of them. -/
def marked (mark : String) : List String → String
  | [] => ""
  | s :: rest => mark ++ s ++ marked mark rest

lemma intercalate_cons (mark s : String) (rest : List String) :
    mark.intercalate (s :: rest) = s ++ marked mark rest := by
  induction rest generalizing s with
  | nil => rw [String.intercalate_singleton, marked, String.append_empty]
  | cons next rest ih =>
      rw [String.intercalate_cons_cons, ih, marked, String.append_assoc, String.append_assoc]

lemma marked_eq_empty {mark : String} (hmark : mark ≠ "") {texts : List String} :
    marked mark texts = "" ↔ texts = [] := by
  cases texts with
  | nil => simp [marked]
  | cons s rest => simp [marked, hmark]

/-- **Delimited texts can be told apart between marks**, and so can how many there are. -/
lemma Delimited.marked_inj (h : Delimited write p) {mark : String} (hmark : mark ≠ "")
    {as bs : List α} (has : ∀ a ∈ as, p a) (hbs : ∀ b ∈ bs, p b)
    (heq : marked mark (as.map write) = marked mark (bs.map write)) : as = bs := by
  induction as generalizing bs with
  | nil =>
      rw [List.map_nil, marked, eq_comm, marked_eq_empty hmark, List.map_eq_nil_iff] at heq
      exact heq.symm
  | cons a as ih =>
      obtain ⟨ha, has⟩ := List.forall_mem_cons.1 has
      cases bs with
      | nil =>
          rw [List.map_nil, marked, marked_eq_empty hmark, List.map_eq_nil_iff] at heq
          exact heq
      | cons b bs =>
          obtain ⟨hb, hbs⟩ := List.forall_mem_cons.1 hbs
          rw [List.map_cons, List.map_cons, marked, marked] at heq
          obtain ⟨hfirst, hrest⟩ := (h.after mark).cancel ha hb heq
          rw [hfirst, ih has hbs hrest]

lemma Delimited.intercalate_inj (h : Delimited write p) {mark : String} (hmark : mark ≠ "")
    {a b : α} {as bs : List α} (has : ∀ e ∈ a :: as, p e) (hbs : ∀ e ∈ b :: bs, p e)
    (heq : mark.intercalate ((a :: as).map write) = mark.intercalate ((b :: bs).map write)) :
    a :: as = b :: bs := by
  obtain ⟨ha, has⟩ := List.forall_mem_cons.1 has
  obtain ⟨hb, hbs⟩ := List.forall_mem_cons.1 hbs
  rw [List.map_cons, List.map_cons, intercalate_cons, intercalate_cons] at heq
  obtain ⟨hfirst, hrest⟩ := h.cancel ha hb heq
  rw [hfirst, h.marked_inj hmark has hbs hrest]

lemma unquoted_append {s t : String} (hs : Unquoted s) (ht : Unquoted t) : Unquoted (s ++ t) := by
  rw [Unquoted, String.toList_append, List.mem_append, not_or]
  exact ⟨hs, ht⟩

/-- A class name holds letters and digits only. -/
lemma unquoted_pascalCase (s : String) : Unquoted (pascalCase s) := by
  intro h
  have hword := wordLike_pascalCase h
  revert hword
  decide

end Text

open Text (Unquoted Delimited delimited_quoted)

/-! ## Selections -/

/-- What the annotations of a class say about a subclass: the value of the discriminator, and the
name of the class that it selects. -/
structure Selection where
  value : String
  name : String

/-- Neither the value nor the name holds a quotation mark. -/
def Selection.Quotable (s : Selection) : Prop := Unquoted s.value ∧ Unquoted s.name

/-! ## The annotation in PHP -/

namespace Php

/-- A selection as an entry of the map. -/
def entry (s : Selection) : String := "\"" ++ s.value ++ "\": \"" ++ s.name ++ "\""

lemma entry_eq (s : Selection) :
    entry s = "\"" ++ (s.value ++ "\"") ++ (": \"" ++ (s.name ++ "\"")) := by
  -- A piece ends with its quotation mark, so the text after it is cut behind the mark.
  have hmark : "\": \"" = "\"" ++ ": \"" := rfl
  unfold entry
  rw [hmark]
  simp only [String.append_assoc, -String.reduceAppend]

lemma delimited_entry : Delimited entry Selection.Quotable := by
  rw [funext entry_eq]
  refine ((delimited_quoted.after "\"").pair (delimited_quoted.after ": \"")).comp
    (f := fun s : Selection => (s.value, s.name)) ?_
  rintro ⟨value, name⟩ ⟨value', name'⟩ h
  simpa using h

/-- The annotation that lists these selections by this field. -/
def annotation (field : String) (selections : List Selection) : String :=
  " * @Discriminator(field = \"" ++ field ++ "\", map = \x7b"
    ++ ", ".intercalate (selections.map entry) ++ "\x7d)"

lemma annotation_eq (field : String) (selections : List Selection) :
    annotation field selections = " * @Discriminator(field = \"" ++ (field ++ "\"") ++
      (", map = \x7b" ++ (", ".intercalate (selections.map entry) ++ "\x7d)")) := by
  have hmark : "\", map = \x7b" = "\"" ++ ", map = \x7b" := rfl
  unfold annotation
  rw [hmark]
  simp only [String.append_assoc, -String.reduceAppend]

/-- **The annotation in PHP can be read back.** -/
lemma annotation_inj {field field' : String} (hfield : Unquoted field) (hfield' : Unquoted field')
    {s s' : Selection} {rest rest' : List Selection} (hs : ∀ e ∈ s :: rest, e.Quotable)
    (hs' : ∀ e ∈ s' :: rest', e.Quotable)
    (h : annotation field (s :: rest) = annotation field' (s' :: rest')) :
    field = field' ∧ s :: rest = s' :: rest' := by
  rw [annotation_eq, annotation_eq] at h
  obtain ⟨hsame, hmap⟩ :=
    (delimited_quoted.after " * @Discriminator(field = \"").cancel hfield hfield' h
  rw [String.append_right_inj, String.append_left_inj] at hmap
  exact ⟨hsame, delimited_entry.intercalate_inj (by decide) hs hs' hmap⟩

end Php

/-! ## The attributes in C# -/

namespace CSharp

/-- A selection as an attribute. -/
def knownSubType (s : Selection) : String :=
  "[JsonSubtypes.KnownSubType(typeof(" ++ s.name ++ "), \"" ++ s.value ++ "\")]"

lemma knownSubType_eq (s : Selection) : knownSubType s =
    "[JsonSubtypes.KnownSubType(typeof(" ++ (s.name ++ "), " ++ "\"") ++ (s.value ++ "\"")
      ++ ")]" := by
  have hname : "), \"" = "), " ++ "\"" := rfl
  have hvalue : "\")]" = "\"" ++ ")]" := rfl
  unfold knownSubType
  rw [hname, hvalue]
  simp only [String.append_assoc, -String.reduceAppend]

lemma delimited_knownSubType : Delimited knownSubType Selection.Quotable := by
  rw [funext knownSubType_eq]
  have hname : Delimited (fun name => name ++ "), " ++ "\"") Unquoted := by
    refine ⟨fun ha hb heq => ?_⟩
    obtain ⟨hsame, hrest⟩ := delimited_quoted.cancel (Text.unquoted_append ha (by decide))
      (Text.unquoted_append hb (by decide)) heq
    exact ⟨(String.append_left_inj "), ").1 hsame, hrest⟩
  have hboth := ((hname.after "[JsonSubtypes.KnownSubType(typeof(").pair delimited_quoted).comp
    (f := fun s : Selection => (s.name, s.value)) <| by
      rintro ⟨value, name⟩ ⟨value', name'⟩ h
      simpa [and_comm] using h
  refine ⟨fun ha hb heq => ?_⟩
  exact (hboth.before ")]").cancel ⟨ha.2, ha.1⟩ ⟨hb.2, hb.1⟩ heq

/-- The attribute that names the field. -/
def converter (field : String) : String :=
  "[JsonConverter(typeof(JsonSubtypes), \"" ++ field ++ "\")]"

lemma converter_eq (field : String) : converter field =
    "[JsonConverter(typeof(JsonSubtypes), \"" ++ (field ++ "\"") ++ ")]" := by
  have hmark : "\")]" = "\"" ++ ")]" := rfl
  unfold converter
  rw [hmark]
  simp only [String.append_assoc, -String.reduceAppend]

/-- The attributes that list these selections by this field. -/
def attributes (field : String) (selections : List Selection) : String :=
  Lines.stack (converter field :: selections.map knownSubType)

/-- **The attributes in C# can be read back.** -/
lemma attributes_inj {field field' : String} (hfield : Unquoted field) (hfield' : Unquoted field')
    {selections selections' : List Selection} (hs : ∀ e ∈ selections, e.Quotable)
    (hs' : ∀ e ∈ selections', e.Quotable)
    (h : attributes field selections = attributes field' selections') :
    field = field' ∧ selections = selections' := by
  rw [attributes, attributes, Lines.stack, Lines.stack, Text.intercalate_cons,
    Text.intercalate_cons, converter_eq, converter_eq] at h
  have hconverter :=
    (delimited_quoted.after "[JsonConverter(typeof(JsonSubtypes), \"").before ")]"
  obtain ⟨hsame, hrest⟩ := hconverter.cancel hfield hfield' h
  exact ⟨hsame, delimited_knownSubType.marked_inj (by decide) hs hs' hrest⟩

end CSharp

/-! ## What a class says about its subclasses -/

namespace Language

variable {language : Language} {c d : ClassDef} {text : String}

/-- The name by which annotations mention a class. -/
def emittedName : Language → TypeRef → Except Failure String
  | php, t => php.fullName t
  | csharp, t => .ok t.name

def selection (language : Language) (s : SubclassRef) : Except Failure Selection :=
  (language.emittedName s.type).map fun name => ⟨s.value, name⟩

/-- The values of the discriminator with the names of the classes that they select, in order. -/
def selections (language : Language) (c : ClassDef) : Except Failure (List Selection) :=
  traverse language.selection c.subclasses

/-- The text that lists selections by a field. -/
def annotationText : Language → String → List Selection → String
  | php => Php.annotation
  | csharp => CSharp.attributes

lemma dispatchDiscriminator_eq_ok (hsubclasses : c.subclasses ≠ []) {field? : Option Scalar}
    (h : c.dispatchDiscriminator = .ok field?) :
    ∃ field, field? = some field ∧ c.discriminatorName = some field := by
  rw [ClassDef.dispatchDiscriminator, if_neg (by simpa using hsubclasses)] at h
  split at h
  · rename_i field hfield
    exact ⟨field, (Except.ok.inj h).symm, hfield⟩
  · cases h

lemma display_of_shown {s : Scalar} (h : s.shown = .ok text) : text = s.display := by
  rw [Scalar.shown] at h
  split at h
  · cases h
  · exact (Except.ok.inj h).symm

/-- The entries of the map are the texts of the selections. -/
lemma selections_of_mapEntry {entries : List String}
    (h : traverse Php.mapEntry c.subclasses = .ok entries) :
    ∃ selections, php.selections c = .ok selections ∧ entries = selections.map Php.entry := by
  have hstep : ∀ s : SubclassRef, ∀ entry, Php.mapEntry s = .ok entry →
      ∃ selection, php.selection s = .ok selection ∧ entry = Php.entry selection := by
    intro s entry hentry
    obtain ⟨name, hname, rfl⟩ := map_eq_ok.1 hentry
    exact ⟨⟨s.value, name⟩, map_eq_ok.2 ⟨name, hname, rfl⟩, rfl⟩
  obtain ⟨selections, hselections, hentries⟩ :=
    forall₂_comp.2 ((traverse_eq_ok_iff.1 h).imp hstep)
  exact ⟨selections, traverse_eq_ok_iff.2 hselections,
    by rw [← map_eq_of_forall₂ hentries.flip fun _ _ h => h, List.map_id']⟩

lemma selections_csharp (c : ClassDef) :
    csharp.selections c = .ok (c.subclasses.map fun s => ⟨s.value, s.type.name⟩) :=
  traverse_ok _ c.subclasses

/-- **The annotations of a class are made of its discriminator and its selections.** -/
lemma annotations_eq_ok (hsubclasses : c.subclasses ≠ []) (h : language.annotations c = .ok text) :
    ∃ field selections, c.discriminatorName = some field ∧
      language.selections c = .ok selections ∧
      text = language.annotationText field.display selections := by
  cases language with
  | php =>
      rw [annotations, Php.annotations, bind_eq_ok] at h
      obtain ⟨field?, hdispatch, h⟩ := h
      obtain ⟨field, rfl, hfield⟩ := dispatchDiscriminator_eq_ok hsubclasses hdispatch
      simp only [bind_eq_ok] at h
      obtain ⟨entries, hentries, shown, hshown, h⟩ := h
      obtain ⟨selections, hselections, rfl⟩ := selections_of_mapEntry hentries
      obtain rfl := display_of_shown hshown
      exact ⟨field, selections, hfield, hselections, (Except.ok.inj h).symm⟩
  | csharp =>
      rw [annotations, CSharp.annotations, bind_eq_ok] at h
      obtain ⟨field?, hdispatch, h⟩ := h
      obtain ⟨field, rfl, hfield⟩ := dispatchDiscriminator_eq_ok hsubclasses hdispatch
      simp only [bind_eq_ok] at h
      obtain ⟨shown, hshown, h⟩ := h
      obtain rfl := display_of_shown hshown
      refine ⟨field, _, hfield, selections_csharp c, (Except.ok.inj h).symm.trans ?_⟩
      rw [annotationText, CSharp.attributes, List.map_map]
      rfl

lemma length_of_selections {selections : List Selection}
    (h : language.selections c = .ok selections) : selections.length = c.subclasses.length :=
  length_of_traverse h

lemma selections_ne_nil (hsubclasses : c.subclasses ≠ []) {selections : List Selection}
    (h : language.selections c = .ok selections) : selections ≠ [] := by
  rw [ne_eq, ← List.length_eq_zero_iff, length_of_selections h, List.length_eq_zero_iff]
  exact hsubclasses

lemma annotationText_inj {field field' : String} (hfield : Unquoted field)
    (hfield' : Unquoted field') {selections selections' : List Selection}
    (hs : ∀ e ∈ selections, e.Quotable) (hs' : ∀ e ∈ selections', e.Quotable)
    (hne : selections ≠ []) (hne' : selections' ≠ [])
    (h : language.annotationText field selections = language.annotationText field' selections') :
    field = field' ∧ selections = selections' := by
  cases language with
  | csharp => exact CSharp.attributes_inj hfield hfield' hs hs' h
  | php =>
      cases selections with
      | nil => exact absurd rfl hne
      | cons s rest =>
          cases selections' with
          | nil => exact absurd rfl hne'
          | cons s' rest' => exact Php.annotation_inj hfield hfield' hs hs' h

/-! ## What is quoted -/

/-- **Nothing that a document gives to the annotations of a class holds a quotation mark**: neither
its discriminator nor the values of it, nor the packages of subclasses where they are written. -/
structure Quotable (language : Language) (c : ClassDef) : Prop where
  discriminator : ∀ name ∈ c.discriminatorName, Unquoted name.display
  values : ∀ s ∈ c.subclasses, Unquoted s.value
  packages : language = php → ∀ s ∈ c.subclasses, Unquoted s.type.package.display

instance (language : Language) (c : ClassDef) : Decidable (language.Quotable c) :=
  decidable_of_iff ((∀ name ∈ c.discriminatorName, Unquoted name.display) ∧
      (∀ s ∈ c.subclasses, Unquoted s.value) ∧
      (language = php → ∀ s ∈ c.subclasses, Unquoted s.type.package.display))
    ⟨fun ⟨discriminator, values, packages⟩ => ⟨discriminator, values, packages⟩,
      fun h => ⟨h.discriminator, h.values, h.packages⟩⟩

lemma unquoted_separateParts {package : String} (h : Unquoted package) :
    Unquoted (php.separateParts package) := by
  intro hmem
  rw [separateParts, String.toList_ofList, List.mem_map] at hmem
  obtain ⟨ch, hch, heq⟩ := hmem
  split at heq
  · cases heq
  · rw [heq] at hch
    exact h hch

lemma unquoted_fullName {t : TypeRef} {name : String} (hname : Unquoted t.name)
    (hpackage : Unquoted t.package.display) (h : php.fullName t = .ok name) : Unquoted name := by
  obtain ⟨space, hspace, rfl⟩ := map_eq_ok.1 h
  rw [typeNamespace] at hspace
  cases hp : t.package with
  | text p =>
      rw [hp] at hspace hpackage
      rw [packageNamespace_text] at hspace
      obtain rfl := Except.ok.inj hspace
      refine Text.unquoted_append (Text.unquoted_append (unquoted_separateParts hpackage) ?_) hname
      decide
  | _ =>
      rw [hp] at hspace
      cases hspace

lemma Quotable.selections (h : language.Quotable c)
    (hnames : ∀ s ∈ c.subclasses, ∃ key, s.type.name = Text.pascalCase key)
    {selections : List Selection} (hs : language.selections c = .ok selections) :
    ∀ e ∈ selections, e.Quotable := by
  intro e he
  obtain ⟨s, hmem, hselection⟩ := forall₂_right (traverse_eq_ok_iff.1 hs) he
  obtain ⟨name, hname, rfl⟩ := map_eq_ok.1 hselection
  obtain ⟨key, hkey⟩ := hnames s hmem
  have htype : Unquoted s.type.name := by
    rw [hkey]
    exact Text.unquoted_pascalCase key
  refine ⟨h.values s hmem, ?_⟩
  cases language with
  | php => exact unquoted_fullName htype (h.packages rfl s hmem) hname
  | csharp =>
      rw [← Except.ok.inj hname]
      exact htype

end Language

/-! ## Annotations -/

namespace ClassModel

variable {doc doc' : Document} {home home' : Value} {registry registry' : TypeRegistry}
  {accessibility accessibility' : Accessibility} {m m' : ClassModel} {c d : ClassDef}
  {language : Language} {text : String}

lemma text_of_discriminatorName (hdoc : doc.TextKeyed)
    (hm : ofDocument doc home registry accessibility = .ok m) (hc : c ∈ m.classes) {name : Scalar}
    (hname : c.discriminatorName = some name) : ∃ s, name = .text s := by
  obtain ⟨_, _, -, hblueprint, hall⟩ := blueprint_of_ofDocument hdoc hm
  obtain ⟨_, -, _, hrealizes⟩ := forall₂_right hall hc
  exact (hrealizes.exists_declared hblueprint hall hname).1

/-- **The annotations of a class can be read back**, as long as nothing in them holds a quotation
mark.  Two classes with subclasses and with the same annotations, whichever documents they come
from, have the same discriminator, and the same values of it select subclasses of the same names in
the same order. -/
theorem annotations_inj (hm : ofDocument doc home registry accessibility = .ok m)
    (hm' : ofDocument doc' home' registry' accessibility' = .ok m')
    (hc : c ∈ m.classes) (hd : d ∈ m'.classes)
    (hsubclasses : c.subclasses ≠ []) (hsubclasses' : d.subclasses ≠ [])
    (hquotable : language.Quotable c) (hquotable' : language.Quotable d)
    (h : language.annotations c = .ok text) (h' : language.annotations d = .ok text) :
    c.discriminatorName.map Scalar.display = d.discriminatorName.map Scalar.display ∧
    (doc.TextKeyed → doc'.TextKeyed → c.discriminatorName = d.discriminatorName) ∧
    ∃ selections, language.selections c = .ok selections ∧
      language.selections d = .ok selections := by
  obtain ⟨field, selections, hfield, hs, rfl⟩ := Language.annotations_eq_ok hsubclasses h
  obtain ⟨field', selections', hfield', hs', heq⟩ := Language.annotations_eq_ok hsubclasses' h'
  obtain ⟨hdisplay, rfl⟩ := Language.annotationText_inj
    (hquotable.discriminator field hfield) (hquotable'.discriminator field' hfield')
    (hquotable.selections (names_of_mem hm hc).2 hs)
    (hquotable'.selections (names_of_mem hm' hd).2 hs')
    (Language.selections_ne_nil hsubclasses hs) (Language.selections_ne_nil hsubclasses' hs') heq
  refine ⟨by rw [hfield, hfield', Option.map_some, Option.map_some, hdisplay],
    fun hdoc hdoc' => ?_, selections, hs, hs'⟩
  obtain ⟨s, rfl⟩ := text_of_discriminatorName hdoc hm hc hfield
  obtain ⟨s', rfl⟩ := text_of_discriminatorName hdoc' hm' hd hfield'
  rw [Scalar.display_text, Scalar.display_text] at hdisplay
  rw [hfield, hfield', hdisplay]

/-! ## Animals -/

/-- Animals of one kind each, with the values of their kinds. -/
def animals (kinds : List (String × String)) : Document :=
  .ofSchemas <| (.text "animal", [
    (.text "discriminator", .text "kind"),
    (.text "properties", .mapping [(.text "kind", .mapping [(.text "type", .text "string")])])]) ::
  kinds.map fun (key, value) => (.text key, [(.text "allOf", .list [
    .mapping [(.text "$ref", .text "#/components/schemas/animal")],
    .mapping [(.text "properties", .mapping [
      (.text "kind", .mapping [(.text "type", .text "string"), (.text "const", .text value)])])]])])

/-- The annotations of animals that are a cat of kind `a` and a dog of kind `b`. -/
def catAndDog : Language → String
  | .php =>
      " * @Discriminator(field = \"kind\", map = \x7b\"a\": \"App\\Cat\", \"b\": \"App\\Dog\"\x7d)"
  | .csharp => "[JsonConverter(typeof(JsonSubtypes), \"kind\")]\n" ++
      "[JsonSubtypes.KnownSubType(typeof(Cat), \"a\")]\n" ++
      "[JsonSubtypes.KnownSubType(typeof(Dog), \"b\")]"

lemma exists_animal {kinds : List (String × String)} {p : ClassDef → Prop} [DecidablePred p]
    (h : ((ofDocument (animals kinds) (.text "App") {} .owner).toOption.bind
      (·.classes.head?)).any (fun c => decide
        ((language.annotations c).toOption = some (catAndDog language) ∧ p c)) = true) :
    ∃ m c, ofDocument (animals kinds) (.text "App") {} .owner = .ok m ∧ c ∈ m.classes ∧
      language.annotations c = .ok (catAndDog language) ∧ p c := by
  obtain ⟨c, hc, hp⟩ := (Option.any_eq_true _ _).1 h
  obtain ⟨m, hm, hhead⟩ := Option.bind_eq_some_iff.1 hc
  obtain ⟨htext, hp⟩ := of_decide_eq_true hp
  exact ⟨m, c, toOption_eq_some.1 hm, List.mem_of_mem_head? hhead, toOption_eq_some.1 htext, hp⟩

/-- The annotations of a class do not show the keys that its subclasses have in the document. -/
theorem annotations_inj_of_animals : ∃ m m' c d,
    ofDocument (animals [("cat", "a"), ("dog", "b")]) (.text "App") {} .owner = .ok m ∧
    ofDocument (animals [("Cat", "a"), ("Dog", "b")]) (.text "App") {} .owner = .ok m' ∧
    c ∈ m.classes ∧ d ∈ m'.classes ∧ Language.php.Quotable c ∧ Language.php.Quotable d ∧
    Language.php.annotations c = .ok (catAndDog .php) ∧
    Language.php.annotations d = .ok (catAndDog .php) ∧
    c.discriminatorName = d.discriminatorName ∧
    ∃ selections, Language.php.selections c = .ok selections ∧
      Language.php.selections d = .ok selections := by
  obtain ⟨m, c, hm, hc, htext, hne, hquotable⟩ := @exists_animal .php
    [("cat", "a"), ("dog", "b")] (fun c => c.subclasses ≠ [] ∧ Language.php.Quotable c) _
    (by decide +kernel)
  obtain ⟨m', d, hm', hd, htext', hne', hquotable'⟩ := @exists_animal .php
    [("Cat", "a"), ("Dog", "b")] (fun c => c.subclasses ≠ [] ∧ Language.php.Quotable c) _
    (by decide +kernel)
  obtain ⟨-, hname, hselections⟩ :=
    annotations_inj hm hm' hc hd hne hne' hquotable hquotable' htext htext'
  exact ⟨m, m', c, d, hm, hm', hc, hd, hquotable, hquotable', htext, htext',
    hname (by decide) (by decide), hselections⟩

/-! ## Quotation marks in values -/

/-- Two classes, one of each document, have the same annotations but different selections. -/
def Confused (language : Language) (doc doc' : Document) : Prop :=
  ∃ m m' c d text,
    ofDocument doc (.text "App") {} .owner = .ok m ∧
    ofDocument doc' (.text "App") {} .owner = .ok m' ∧
    c ∈ m.classes ∧ d ∈ m'.classes ∧ c.subclasses ≠ [] ∧ d.subclasses ≠ [] ∧
    language.annotations c = .ok text ∧ language.annotations d = .ok text ∧
    ¬ ∃ selections, language.selections c = .ok selections ∧
      language.selections d = .ok selections

/-- One animal only, whose kind holds the text of two. -/
def alone : Language → List (String × String)
  | .php => [("dog", "a\": \"App\\Cat\", \"b")]
  | .csharp => [("cat", "a\")]\n[JsonSubtypes.KnownSubType(typeof(Dog), \"b")]

lemma confused_of_alone (language : Language) :
    Confused language (animals [("cat", "a"), ("dog", "b")]) (animals (alone language)) := by
  obtain ⟨m, c, hm, hc, htext, hlength⟩ := @exists_animal language
    [("cat", "a"), ("dog", "b")] (fun c => c.subclasses.length = 2) _
    (by cases language <;> decide +kernel)
  obtain ⟨m', d, hm', hd, htext', hlength'⟩ := @exists_animal language
    (alone language) (fun d => d.subclasses.length = 1) _
    (by cases language <;> decide +kernel)
  refine ⟨m, m', c, d, _, hm, hm', hc, hd, List.ne_nil_of_length_eq_add_one hlength,
    List.ne_nil_of_length_eq_add_one hlength', htext, htext', ?_⟩
  rintro ⟨selections, hs, hs'⟩
  have hsame : c.subclasses.length = d.subclasses.length :=
    (Language.length_of_selections hs).symm.trans (Language.length_of_selections hs')
  omega

/-- **A quotation mark in a value ends the value**: in both languages, one subclass can have the
annotations of two. -/
theorem annotations_of_alone :
    Confused .php (animals [("cat", "a"), ("dog", "b")]) (animals (alone .php)) ∧
    Confused .csharp (animals [("cat", "a"), ("dog", "b")]) (animals (alone .csharp)) :=
  ⟨confused_of_alone .php, confused_of_alone .csharp⟩

end ClassModel

end SchemaClasses
