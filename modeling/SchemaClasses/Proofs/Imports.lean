import Mathlib.Data.List.Induction
import SchemaClasses.Proofs.ClosedTypes
import SchemaClasses.Proofs.InsertionOrder
import SchemaClasses.Proofs.MemberNames

/-!
# What a class file imports

The file of a class names other classes: its superclass, the types of its variables and, in C#, its
subclasses.  In PHP each of them has a line of its own; in C# each namespace has one, but for the
namespace of the class itself.  Beside these stand the lines that the frameworks ask for.

Two steps take out what is named twice: types are gathered in an ordered set, and lines in another.
`eraseDups_map_items` says that the second step undoes what the first one leaves, so the lines are
those of the mentioned types without repetition, whatever packages are spelled alike.

`imports_of_ofDocument` is the whole statement.  A line is an entry of the block; as long as no
package holds a line break it is a line of the text as well.
-/

namespace SchemaClasses

open Lineage (Components)

/-! ## Ordered sets of lines -/

namespace OrderedSet

variable {α β : Type} [BEq α] [BEq β] [LawfulBEq β]

/-- What an ordered set leaves out shows nothing new, where equal items show the same. -/
lemma eraseDups_map_items {f : α → β} {as : List α}
    (h : ∀ a ∈ as, ∀ b ∈ as, (a == b) = true → f a = f b) :
    ((ofList as).items.map f).eraseDups = (as.map f).eraseDups := by
  induction as using List.reverseRecOn with
  | nil => rfl
  | append_singleton as a ih =>
      have hih := ih fun x hx y hy => h x (List.mem_append_left _ hx) y (List.mem_append_left _ hy)
      have hmem : f a ∈ (ofList as).items.map f ↔ f a ∈ as.map f := by
        rw [← List.mem_eraseDups, hih, List.mem_eraseDups]
      rw [ofList_concat, items_insert, List.map_append, List.map_singleton, eraseDups_concat]
      split
      · rename_i hcontains
        rw [contains_eq_any] at hcontains
        obtain ⟨x, hx, hxa⟩ := List.any_eq_true.1 hcontains
        have hsame : f x = f a :=
          h x (List.mem_append_left _ (mem_of_mem_ofList hx)) a (by simp) hxa
        rw [if_pos (hmem.1 (hsame ▸ List.mem_map_of_mem hx)), hih]
      · rw [List.map_append, List.map_singleton, eraseDups_concat, if_congr hmem rfl rfl, hih]

end OrderedSet

lemma nodup_eraseDups {α : Type} [BEq α] [LawfulBEq α] (as : List α) : as.eraseDups.Nodup := by
  rw [← OrderedSet.items_ofList]
  exact (OrderedSet.ofList as).distinct.imp fun h => by simpa using h

lemma eraseDups_map {α β : Type} [BEq α] [LawfulBEq α] [BEq β] [LawfulBEq β] {f : α → β}
    (hf : Function.Injective f) (as : List α) : (as.map f).eraseDups = as.eraseDups.map f := by
  induction as using List.reverseRecOn with
  | nil => rfl
  | append_singleton as a ih =>
      rw [List.map_append, List.map_singleton, eraseDups_concat, eraseDups_concat, ih,
        if_congr (List.mem_map_of_injective hf) rfl rfl]
      split
      · rfl
      · rw [List.map_append, List.map_singleton]

/-! ## Types and their spelling -/

/-- For a package that is a text, equality of types is being equal. -/
lemma TypeRef.beq_iff {t t' : TypeRef} (h : ∃ p, t'.package = .text p) :
    (t == t') = true ↔ t = t' := by
  obtain ⟨name, package, isBuiltIn⟩ := t
  obtain ⟨name', package', isBuiltIn'⟩ := t'
  obtain ⟨p, rfl⟩ : ∃ p, package' = .text p := h
  have hbeq : (TypeRef.mk name package isBuiltIn == TypeRef.mk name' (.text p) isBuiltIn') =
      (name == name' && (package == .text p && isBuiltIn == isBuiltIn')) := rfl
  simp [hbeq]

namespace Language

variable {language : Language} {t : TypeRef}

/-- The namespace of a type whose package is a text. -/
def space (language : Language) (t : TypeRef) : String := language.separateParts t.package.display

/-- The name of a type with its namespace. -/
def spelling (language : Language) (t : TypeRef) : String :=
  language.space t ++ language.separator.toString ++ t.name

lemma typeNamespace_eq (language : Language) (h : ∃ p, t.package = .text p) :
    language.typeNamespace t = .ok (language.space t) := by
  obtain ⟨p, hp⟩ := h
  rw [typeNamespace, space, hp]
  rfl

lemma fullName_eq (language : Language) (h : ∃ p, t.package = .text p) :
    language.fullName t = .ok (language.spelling t) := by
  rw [fullName, typeNamespace_eq language h]
  rfl

/-- How the parts of a package were separated before does not matter. -/
lemma separateParts_separateParts (language other : Language) (p : String) :
    language.separateParts (other.separateParts p) = language.separateParts p := by
  have hmark : ∀ c, c = other.separator ∨ c = other.foreignSeparator →
      (if c = language.foreignSeparator then language.separator else c) = language.separator := by
    rintro c (rfl | rfl) <;> cases language <;> cases other <;> decide
  rw [separateParts, separateParts, separateParts, String.toList_ofList, List.map_map]
  congr 1
  refine List.map_congr_left fun c _ => ?_
  rw [Function.comp_apply]
  by_cases hc : c = other.foreignSeparator
  · rw [if_pos hc, hmark _ (Or.inl rfl), hmark c (Or.inr hc)]
  · rw [if_neg hc]

lemma not_mem_separateParts {mark : Char} (language : Language) {p : String}
    (hmark : mark ∉ p.toList) (hseparator : mark ≠ language.separator) :
    mark ∉ (language.separateParts p).toList := by
  rw [separateParts, String.toList_ofList, List.mem_map]
  rintro ⟨c, hc, hmarked⟩
  split at hmarked
  · exact hseparator hmarked.symm
  · exact hmark (hmarked ▸ hc)

end Language

/-! ## What a class mentions -/

namespace ClassDef

variable {c : ClassDef} {t : TypeRef}

/-- **A class mentions another one**: it extends it, or one of its own variables has its type.
A class does not mention itself. -/
inductive Mentions (c : ClassDef) (t : TypeRef) : Prop where
  | superClass {s : ClassDef} (extended : c.superClass = some s) (type : t = s.type)
  | field {v : InstanceVariable} (own : v ∈ c.ownVariables) (type : t = v.type)
      (userDefined : t.isBuiltIn = false) (other : t ≠ c.type)

/-- The types that a class mentions: that of its superclass, then those of its variables. -/
def mentionedTypes (c : ClassDef) : List TypeRef :=
  (c.superClass.map type).toList ++
    (c.ownVariables.map (·.type)).filter fun t => t.isUserDefined && !(t == c.type)

lemma mem_mentionedTypes_iff (hc : ∃ p, c.package = .text p) :
    t ∈ c.mentionedTypes ↔ c.Mentions t := by
  have hother : (t.isUserDefined && !(t == c.type)) = true ↔
      t.isBuiltIn = false ∧ t ≠ c.type := by
    rw [Bool.and_eq_true, TypeRef.isUserDefined, Bool.not_eq_true', Bool.not_eq_true',
      ← Bool.not_eq_true, ← Bool.not_eq_true, TypeRef.beq_iff hc]
  rw [mentionedTypes, List.mem_append, List.mem_filter, hother, Option.mem_toList,
    Option.map_eq_some_iff, List.mem_map]
  constructor
  · rintro (⟨s, hs, rfl⟩ | ⟨⟨v, hv, rfl⟩, huser, hne⟩)
    · exact .superClass hs rfl
    · exact .field hv rfl huser hne
  · rintro (⟨hs, rfl⟩ | ⟨hv, rfl, huser, hne⟩)
    · exact Or.inl ⟨_, hs, rfl⟩
    · exact Or.inr ⟨⟨_, hv, rfl⟩, huser, hne⟩

/-- The types that are listed once are equal only if they are the same. -/
lemma eraseDups_map_usedTypes {f : TypeRef → String}
    (htexts : ∀ t ∈ c.mentionedTypes, ∃ p, t.package = .text p) :
    (c.usedTypes.items.map f).eraseDups = (c.mentionedTypes.map f).eraseDups :=
  OrderedSet.eraseDups_map_items fun _ _ t ht hbeq =>
    congrArg f ((TypeRef.beq_iff (htexts t ht)).1 hbeq)

end ClassDef

lemma eraseDups_append_congr {as as' : List String} (h : as.eraseDups = as'.eraseDups)
    (bs : List String) : (as ++ bs).eraseDups = (as' ++ bs).eraseDups := by
  induction bs using List.reverseRecOn with
  | nil => rwa [List.append_nil, List.append_nil]
  | append_singleton bs b ih =>
      have hmem : b ∈ as ++ bs ↔ b ∈ as' ++ bs := by
        rw [← List.mem_eraseDups, ih, List.mem_eraseDups]
      rw [← List.append_assoc, ← List.append_assoc, eraseDups_concat, eraseDups_concat, ih,
        if_congr hmem rfl rfl]

/-! ## Import lines in PHP -/

namespace Php

open SchemaClasses.Language (php)

variable {c : ClassDef}

def useLine (name : String) : String := "use " ++ name ++ ";"

lemma useLine_injective : Function.Injective useLine := fun name name' h => by
  simpa [useLine] using h

/-- The full names that a class imports: those of the types it mentions, each once, and that of the
annotation if it has subclasses. -/
def importedNames (c : ClassDef) : List String :=
  (c.mentionedTypes.map php.spelling ++
    if c.subclasses.isEmpty then [] else [annotationClass]).eraseDups

lemma mem_importedNames_iff {name : String} : name ∈ importedNames c ↔
    (∃ t ∈ c.mentionedTypes, php.spelling t = name) ∨
      c.subclasses ≠ [] ∧ name = annotationClass := by
  rw [importedNames, List.mem_eraseDups, List.mem_append, List.mem_map, ne_eq,
    ← List.isEmpty_iff]
  split
  · rename_i hnone
    simp [hnone]
  · rename_i hsome
    simp [hsome]

/-- **The block imports these names**, one line for each. -/
theorem uses_eq (htexts : ∀ t ∈ c.mentionedTypes, ∃ p, t.package = .text p) :
    uses c = .ok (Lines.stack ((importedNames c).map useLine)) := by
  have hnames : traverse php.fullName c.usedTypes.items =
      .ok (c.usedTypes.items.map php.spelling) :=
    traverse_eq_map fun t ht =>
      Language.fullName_eq php (htexts t (OrderedSet.mem_of_mem_ofList ht))
  rw [uses, hnames]
  change Except.ok (Lines.stack (OrderedSet.ofList (List.map useLine _)).items) = _
  rw [OrderedSet.items_ofList, eraseDups_map useLine_injective, importedNames,
    eraseDups_append_congr (ClassDef.eraseDups_map_usedTypes htexts)]

/-- **The import lines of a class in PHP.**  Every class it mentions has one, that of the superclass
first and the others in the order in which the variables mention them; behind them stands that of
the annotation if and only if there are subclasses. -/
structure Imports (c : ClassDef) (lines : List String) : Prop where
  block : uses c = .ok (Lines.stack lines)
  distinct : lines.Nodup
  complete : ∀ t, c.Mentions t → lines.count (useLine (php.spelling t)) = 1
  order : lines = (c.mentionedTypes.map fun t => useLine (php.spelling t)).eraseDups ++
    if c.subclasses = [] then [] else [useLine annotationClass]
  annotated : useLine annotationClass ∈ lines ↔ c.subclasses ≠ []

/-- A class that mentions no class of the name of the annotation imports what it should. -/
lemma imports_of_texts (hc : ∃ p, c.package = .text p)
    (htexts : ∀ t ∈ c.mentionedTypes, ∃ p, t.package = .text p)
    (hforeign : ∀ t ∈ c.mentionedTypes, php.spelling t ≠ annotationClass) :
    Imports c ((importedNames c).map useLine) := by
  have hdistinct : ((importedNames c).map useLine).Nodup :=
    (nodup_eraseDups _).map useLine_injective
  have hnew : annotationClass ∉ c.mentionedTypes.map php.spelling := by
    rintro hmem
    obtain ⟨t, ht, heq⟩ := List.mem_map.1 hmem
    exact hforeign t ht heq
  refine ⟨uses_eq htexts, hdistinct, fun t ht => ?_, ?_, ?_⟩
  · refine List.count_eq_one_of_mem hdistinct (List.mem_map_of_mem ?_)
    exact mem_importedNames_iff.2
      (Or.inl ⟨t, (ClassDef.mem_mentionedTypes_iff hc).2 ht, rfl⟩)
  · have hmap : (c.mentionedTypes.map fun t => useLine (php.spelling t)) =
        (c.mentionedTypes.map php.spelling).map useLine := by
      rw [List.map_map]
      rfl
    rw [hmap, eraseDups_map useLine_injective, importedNames]
    by_cases hnone : c.subclasses = []
    · simp [hnone]
    · rw [if_neg (by simpa using hnone), if_neg hnone, eraseDups_concat, if_neg hnew,
        List.map_append, List.map_singleton]
  · rw [List.mem_map_of_injective useLine_injective, mem_importedNames_iff]
    constructor
    · rintro (⟨t, ht, heq⟩ | ⟨hsome, -⟩)
      · exact absurd heq (hforeign t ht)
      · exact hsome
    · exact fun hsome => Or.inr ⟨hsome, rfl⟩

end Php

/-! ## Import lines in C# -/

namespace CSharp

open SchemaClasses.Language (csharp)

variable {c : ClassDef}

def usingLine (name : String) : String := "using " ++ name ++ ";"

lemma usingLine_injective : Function.Injective usingLine := fun name name' h => by
  simpa [usingLine] using h

/-- **A class names another one**: it mentions it, or selects it as a subclass. -/
def Refers (c : ClassDef) (t : TypeRef) : Prop := c.Mentions t ∨ ∃ s ∈ c.subclasses, t = s.type

lemma mem_frameworkNamespaces_iff {name : String} : name ∈ frameworkNamespaces c ↔
    (name = "System.Collections.Generic" ∧
      ∃ v ∈ c.ownVariables, v.type.isBuiltIn = true ∧ v.type.name = "array") ∨
    (name ∈ attributeNamespaces ∧ c.subclasses ≠ []) := by
  have harray : (c.ownVariables.any fun v => v.type.isBuiltIn && v.type.name == "array") = true ↔
      ∃ v ∈ c.ownVariables, v.type.isBuiltIn = true ∧ v.type.name = "array" := by
    simp [List.any_eq_true]
  rw [frameworkNamespaces, List.mem_append, ← harray, ne_eq, ← List.isEmpty_iff]
  refine or_congr ?_ ?_
  · split <;> simp_all
  · split <;> simp_all

/-- **The block imports the namespaces of the frameworks and of the classes that are named**, one
line for each, but none for the namespace of the class itself. -/
theorem exists_uses_eq (hc : ∃ p, c.package = .text p)
    (htexts : ∀ t, Refers c t → ∃ p, t.package = .text p) :
    ∃ names : List String, uses c = .ok (Lines.stack (names.map usingLine)) ∧ names.Nodup ∧
      ∀ name, name ∈ names ↔ name ∈ frameworkNamespaces c ∨
        name ≠ csharp.space c.type ∧ ∃ t, Refers c t ∧ name = csharp.space t := by
  have hmentioned : ∀ t ∈ c.mentionedTypes, ∃ p, t.package = .text p := fun t ht =>
    htexts t (Or.inl ((ClassDef.mem_mentionedTypes_iff hc).1 ht))
  have hown : csharp.typeNamespace c.type = .ok (csharp.space c.type) :=
    Language.typeNamespace_eq csharp hc
  have hreferenced : traverse csharp.typeNamespace
      (c.usedTypes.items ++ c.subclasses.map (·.type)) =
        .ok ((c.usedTypes.items ++ c.subclasses.map (·.type)).map csharp.space) := by
    refine traverse_eq_map fun t ht => Language.typeNamespace_eq csharp ?_
    rcases List.mem_append.1 ht with ht | ht
    · exact hmentioned t (OrderedSet.mem_of_mem_ofList ht)
    · obtain ⟨s, hs, rfl⟩ := List.mem_map.1 ht
      exact htexts s.type (Or.inr ⟨s, hs, rfl⟩)
  have hspaces : ∀ name, name ∈ (c.usedTypes.items ++ c.subclasses.map (·.type)).map csharp.space ↔
      ∃ t, Refers c t ∧ name = csharp.space t := by
    intro name
    have hused : name ∈ c.usedTypes.items.map csharp.space ↔
        name ∈ c.mentionedTypes.map csharp.space := by
      rw [← List.mem_eraseDups, ClassDef.eraseDups_map_usedTypes hmentioned, List.mem_eraseDups]
    rw [List.map_append, List.mem_append, hused]
    simp only [List.mem_map, ClassDef.mem_mentionedTypes_iff hc, Refers]
    constructor
    · rintro (⟨t, ht, rfl⟩ | ⟨_, ⟨s, hs, rfl⟩, rfl⟩)
      · exact ⟨t, Or.inl ht, rfl⟩
      · exact ⟨s.type, Or.inr ⟨s, hs, rfl⟩, rfl⟩
    · rintro ⟨t, ht | ⟨s, hs, rfl⟩, rfl⟩
      · exact Or.inl ⟨t, ht, rfl⟩
      · exact Or.inr ⟨s.type, ⟨s, hs, rfl⟩, rfl⟩
  refine ⟨(frameworkNamespaces c ++ ((c.usedTypes.items ++ c.subclasses.map (·.type)).map
    csharp.space).filter (· ≠ csharp.space c.type)).eraseDups, ?_, nodup_eraseDups _,
    fun name => ?_⟩
  · rw [uses, hown]
    simp only [hreferenced, bind, Except.bind, pure, Except.pure]
    rw [← eraseDups_map usingLine_injective, ← OrderedSet.items_ofList]
    rfl
  · rw [List.mem_eraseDups, List.mem_append, List.mem_filter, hspaces, decide_eq_true_eq, and_comm]

/-- **The import lines of a class in C#.**  The namespace of every class that it names is its own or
has one line; its own has none.  Two lines of the frameworks are there if and only if there are
subclasses, one if and only if a variable holds an array, and no other line is. -/
structure Imports (c : ClassDef) (lines : List String) : Prop where
  block : uses c = .ok (Lines.stack lines)
  distinct : lines.Nodup
  complete : ∀ t, Refers c t → csharp.space t = csharp.space c.type ∨
    lines.count (usingLine (csharp.space t)) = 1
  own : usingLine (csharp.space c.type) ∉ lines
  attributes : ∀ name ∈ ["JsonSubTypes", "Newtonsoft.Json"],
    usingLine name ∈ lines ↔ c.subclasses ≠ []
  collections : usingLine "System.Collections.Generic" ∈ lines ↔
    ∃ v ∈ c.ownVariables, v.type.isBuiltIn = true ∧ v.type.name = "array"
  minimal : ∀ line ∈ lines, (∃ name ∈ frameworkNamespaces c, line = usingLine name) ∨
    ∃ t, Refers c t ∧ csharp.space t ≠ csharp.space c.type ∧ line = usingLine (csharp.space t)

/-- A class far from the frameworks imports what it should. -/
lemma imports_of_texts (hc : ∃ p, c.package = .text p)
    (htexts : ∀ t, Refers c t → ∃ p, t.package = .text p)
    (hown : csharp.space c.type ∉ "System.Collections.Generic" :: attributeNamespaces)
    (hforeign : ∀ t, Refers c t →
      csharp.space t ∉ "System.Collections.Generic" :: attributeNamespaces) :
    ∃ names : List String, Imports c (names.map usingLine) := by
  obtain ⟨names, hblock, hdistinct, hnames⟩ := exists_uses_eq hc htexts
  have hlines : (names.map usingLine).Nodup := hdistinct.map usingLine_injective
  have hframework : ∀ name ∈ "System.Collections.Generic" :: attributeNamespaces,
      (usingLine name ∈ names.map usingLine ↔ name ∈ frameworkNamespaces c) := by
    intro name hname
    rw [List.mem_map_of_injective usingLine_injective, hnames, or_iff_left_iff_imp]
    rintro ⟨-, t, ht, rfl⟩
    exact absurd hname (hforeign t ht)
  refine ⟨names, hblock, hlines, fun t ht => ?_, ?_, fun name hname => ?_, ?_, fun line hline => ?_⟩
  · by_cases hsame : csharp.space t = csharp.space c.type
    · exact Or.inl hsame
    · refine Or.inr (List.count_eq_one_of_mem hlines (List.mem_map_of_mem ?_))
      exact (hnames _).2 (Or.inr ⟨hsame, t, ht, rfl⟩)
  · rw [List.mem_map_of_injective usingLine_injective, hnames]
    rintro (hname | ⟨hne, -⟩)
    · refine hown (List.mem_cons.2 ?_)
      exact (mem_frameworkNamespaces_iff.1 hname).imp (·.1) (·.1)
    · exact hne rfl
  · have hne : name ≠ "System.Collections.Generic" := by
      rintro rfl
      exact absurd hname (by decide)
    rw [hframework name (List.mem_cons_of_mem _ hname), mem_frameworkNamespaces_iff]
    simp [hne, show name ∈ attributeNamespaces from hname]
  · rw [hframework _ List.mem_cons_self, mem_frameworkNamespaces_iff]
    simp [attributeNamespaces]
  · obtain ⟨name, hname, rfl⟩ := List.mem_map.1 hline
    rcases (hnames name).1 hname with hname | ⟨hne, t, ht, rfl⟩
    · exact Or.inl ⟨name, hname, rfl⟩
    · exact Or.inr ⟨t, ht, hne, rfl⟩

end CSharp

/-! ## Models -/

/-- The namespaces of the frameworks that generated classes refer to. -/
def frameworkPackages : List String :=
  ["JMS\\Serializer\\Annotation", "JsonSubTypes", "Newtonsoft.Json", "System.Collections.Generic"]

/-- A package that is a text and no namespace of a framework, whichever marks separate its parts. -/
def TypeRef.Homed (t : TypeRef) : Prop :=
  ∃ p, t.package = .text p ∧
    Language.php.separateParts p ∉ frameworkPackages.map Language.php.separateParts

lemma TypeRef.Homed.space_ne {t : TypeRef} (h : t.Homed) (language : Language) {name : String}
    (hname : name ∈ frameworkPackages) : language.space t ≠ language.separateParts name := by
  obtain ⟨p, hp, hforeign⟩ := h
  intro heq
  rw [Language.space, hp] at heq
  refine hforeign (List.mem_map.2 ⟨name, hname, ?_⟩)
  have hphp := congrArg Language.php.separateParts heq
  rw [Language.separateParts_separateParts, Language.separateParts_separateParts] at hphp
  exact hphp.symm

lemma TypeRef.Homed.space_not_mem {t : TypeRef} (h : t.Homed) : Language.csharp.space t ∉
    "System.Collections.Generic" :: CSharp.attributeNamespaces := by
  have hlisted : ∀ name ∈ "System.Collections.Generic" :: CSharp.attributeNamespaces,
      name ∈ frameworkPackages ∧ Language.csharp.separateParts name = name := by decide
  intro hmem
  obtain ⟨hname, hsame⟩ := hlisted _ hmem
  exact h.space_ne .csharp hname hsame.symm

/-- Two texts that end in the same way behind their last mark are the same before it. -/
lemma append_cons_inj {mark : Char} {xs xs' ys ys' : List Char} (hys : mark ∉ ys)
    (hys' : mark ∉ ys') (h : xs ++ mark :: ys = xs' ++ mark :: ys') : xs = xs' ∧ ys = ys' := by
  rcases List.append_eq_append_iff.1 h with ⟨as, rfl, hrest⟩ | ⟨as, rfl, hrest⟩
  · cases as with
    | nil => simpa using hrest
    | cons a as =>
        obtain ⟨-, rfl⟩ := List.cons.inj hrest
        exact absurd (by simp) hys
  · cases as with
    | nil => simpa [eq_comm] using hrest
    | cons a as =>
        obtain ⟨-, rfl⟩ := List.cons.inj hrest
        exact absurd (by simp) hys'

namespace ClassModel

variable {doc : Document} {home : Value} {registry : TypeRegistry}
  {accessibility : Accessibility} {m : ClassModel} {c : ClassDef}

/-- What a class names is a class of the model. -/
lemma exists_class_of_refers (h : ofDocument doc home registry accessibility = .ok m)
    (hc : c ∈ m.classes) {t : TypeRef} (ht : CSharp.Refers c t) : ∃ d ∈ m.classes, t = d.type := by
  obtain ⟨hsuper, hvariables, hsubclasses⟩ := types_of_mem h hc
  rcases ht with (⟨hs, rfl⟩ | ⟨hv, rfl, huser, -⟩) | ⟨s, hs, rfl⟩
  · exact hsuper _ hs
  · exact hvariables _ (List.mem_filter.1 hv).1 huser
  · exact hsubclasses s hs

/-- No class of a model has a name with a mark that separates packages, and none breaks a line. -/
lemma not_mem_name (h : ofDocument doc home registry accessibility = .ok m) (hc : c ∈ m.classes) :
    '\\' ∉ c.name.toList ∧ '\n' ∉ c.name.toList := by
  obtain ⟨key, hkey⟩ := (names_of_mem h hc).1
  rw [hkey]
  exact ⟨Text.not_mem_pascalCase (by decide) rfl key, Text.not_mem_pascalCase (by decide) rfl key⟩

lemma spelling_ne_annotationClass {t : TypeRef} (hhomed : t.Homed) (hname : '\\' ∉ t.name.toList) :
    Language.php.spelling t ≠ Php.annotationClass := by
  intro heq
  have hannotated : Php.annotationClass.toList =
      (Language.php.separateParts "JMS\\Serializer\\Annotation").toList ++
        '\\' :: "Discriminator".toList := by decide
  have hchars := congrArg String.toList heq
  rw [hannotated, Language.spelling, String.toList_append, String.toList_append,
    List.append_assoc] at hchars
  obtain ⟨hspace, -⟩ := append_cons_inj hname (by decide) hchars
  exact hhomed.space_ne .php List.mem_cons_self (String.toList_injective hspace)

/-- Where no package breaks a line, no import line does. -/
lemma unbroken_of_imports (h : ofDocument doc home registry accessibility = .ok m)
    (hc : c ∈ m.classes) {php csharp : List String} (hphp : Php.Imports c php)
    (hcsharp : CSharp.Imports c csharp) (htype : ∃ p, c.package = .text p)
    (hpackages : ∀ d ∈ m.classes, '\n' ∉ d.package.display.toList) :
    ∀ line ∈ php ++ csharp, '\n' ∉ line.toList := by
  have hnamed : ∀ (language : Language) t, CSharp.Refers c t →
      '\n' ∉ (language.space t).toList ∧ '\n' ∉ t.name.toList := by
    intro language t ht
    obtain ⟨d, hd, rfl⟩ := exists_class_of_refers h hc ht
    refine ⟨Language.not_mem_separateParts language (hpackages d hd) ?_, (not_mem_name h hd).2⟩
    cases language <;> decide
  have hannotated : '\n' ∉ (Php.useLine Php.annotationClass).toList := by decide
  have huse : ∀ t, c.Mentions t → '\n' ∉ (Php.useLine (Language.php.spelling t)).toList := by
    intro t ht
    obtain ⟨hspace, hname⟩ := hnamed .php t (Or.inl ht)
    simp [Php.useLine, Language.spelling, Language.separator, hspace, hname]
  have husing : ∀ {name : String}, '\n' ∉ name.toList → '\n' ∉ (CSharp.usingLine name).toList := by
    intro name hname
    simp [CSharp.usingLine, hname]
  intro line hline
  rcases List.mem_append.1 hline with hline | hline
  · rw [hphp.order, List.mem_append, List.mem_eraseDups, List.mem_map] at hline
    rcases hline with ⟨t, ht, rfl⟩ | hline
    · exact huse t ((ClassDef.mem_mentionedTypes_iff htype).1 ht)
    · split at hline
      · cases hline
      · rwa [List.mem_singleton.1 hline]
  · rcases hcsharp.minimal line hline with ⟨name, hname, rfl⟩ | ⟨t, ht, -, rfl⟩
    · refine husing ?_
      have hframework : ∀ name ∈ CSharp.attributeNamespaces, '\n' ∉ name.toList := by decide
      rcases CSharp.mem_frameworkNamespaces_iff.1 hname with ⟨rfl, -⟩ | ⟨hname, -⟩
      · decide
      · exact hframework name hname
    · exact husing (hnamed .csharp t ht).1

/-- **Imports are complete, minimal and free of duplicates.**  The classes of a model that lives
outside the frameworks import in either language what they name, each once, and nothing else but
what the frameworks ask for. -/
theorem imports_of_ofDocument (h : ofDocument doc home registry accessibility = .ok m)
    (hhomed : ∀ c ∈ m.classes, c.type.Homed) :
    ∀ c ∈ m.classes, ∃ php csharp, Php.Imports c php ∧ CSharp.Imports c csharp ∧
      ((∀ d ∈ m.classes, '\n' ∉ d.package.display.toList) →
        ∀ line ∈ php ++ csharp, '\n' ∉ line.toList) := by
  intro c hc
  have htype : ∃ p, c.package = .text p := (hhomed c hc).imp fun _ hp => hp.1
  have hnamed : ∀ t, CSharp.Refers c t → t.Homed ∧ '\\' ∉ t.name.toList := by
    intro t ht
    obtain ⟨d, hd, rfl⟩ := exists_class_of_refers h hc ht
    exact ⟨hhomed d hd, (not_mem_name h hd).1⟩
  have hmentioned : ∀ t ∈ c.mentionedTypes, t.Homed ∧ '\\' ∉ t.name.toList := fun t ht =>
    hnamed t (Or.inl ((ClassDef.mem_mentionedTypes_iff htype).1 ht))
  have hphp := Php.imports_of_texts htype (fun t ht => (hmentioned t ht).1.imp fun _ hp => hp.1)
    fun t ht => spelling_ne_annotationClass (hmentioned t ht).1 (hmentioned t ht).2
  obtain ⟨names, hcsharp⟩ := CSharp.imports_of_texts htype
    (fun t ht => (hnamed t ht).1.imp fun _ hp => hp.1) (hhomed c hc).space_not_mem
    fun t ht => (hnamed t ht).1.space_not_mem
  exact ⟨_, _, hphp, hcsharp, unbroken_of_imports h hc hphp hcsharp htype⟩

/-- Animals and their keepers live in one package, which is spelled in two ways. -/
def zoo : Entries Scalar Mapping := [
  (.text "animal", [
    (.text "x-package", .text "Zoo.Core"),
    (.text "discriminator", .text "kind"),
    (.text "properties", .mapping [
      (.text "kind", .mapping [(.text "type", .text "string")]),
      (.text "keeper", .mapping [(.text "type", .text "Keeper")])])]),
  (.text "keeper", [
    (.text "x-package", .text "Zoo\\Core"),
    (.text "properties", .mapping [
      (.text "chief", .mapping [(.text "type", .text "Keeper")]),
      (.text "pet", .mapping [(.text "type", .text "Animal")])])]),
  (.text "dog", [(.text "allOf", .list [
    .mapping [(.text "$ref", .text "#/components/schemas/animal")],
    .mapping [(.text "properties", .mapping [
      (.text "toys", .mapping [(.text "type", .text "array")]),
      (.text "walker", .mapping [(.text "type", .text "Keeper")]),
      (.text "home", .mapping [(.text "type", .text "Kennel")]),
      (.text "feeder", .mapping [(.text "type", .text "Keeper")]),
      (.text "mother", .mapping [(.text "type", .text "Animal")])])]])]),
  (.text "kennel", [])]

lemma exists_model_zoo : ∃ m, ofDocument (.ofSchemas zoo) (.text "App") {} .owner = .ok m ∧
    (m.classes.map (·.package.text?),
      m.classes.map fun c => ((Php.uses c).toOption, (CSharp.uses c).toOption)) =
      ([some "Zoo.Core", some "Zoo\\Core", some "App", some "App"], [
        (some "use Zoo\\Core\\Keeper;\nuse JMS\\Serializer\\Annotation\\Discriminator;",
          some "using JsonSubTypes;\nusing Newtonsoft.Json;\nusing App;"),
        (some "use Zoo\\Core\\Animal;", some ""),
        (some "use Zoo\\Core\\Animal;\nuse Zoo\\Core\\Keeper;\nuse App\\Kennel;",
          some "using System.Collections.Generic;\nusing Zoo.Core;"),
        (some "", some "")]) :=
  exists_ok_of_toOption (by decide +kernel)

lemma homed_of_zoo {m : ClassModel}
    (h : m.classes.map (·.package.text?) =
      [some "Zoo.Core", some "Zoo\\Core", some "App", some "App"]) :
    ∀ c ∈ m.classes, c.type.Homed := by
  have hforeign : ∀ p ∈ ["Zoo.Core", "Zoo\\Core", "App"],
      Language.php.separateParts p ∉ frameworkPackages.map Language.php.separateParts := by decide
  intro c hc
  have hmem : c.package.text? ∈ m.classes.map (·.package.text?) := List.mem_map_of_mem hc
  rw [h] at hmem
  obtain ⟨p, hp⟩ : ∃ p, c.package.text? = some p := by
    cases htext : c.package.text? with
    | none => simp [htext] at hmem
    | some p => exact ⟨p, rfl⟩
  rw [hp] at hmem
  exact ⟨p, Scalar.text?_eq_some.1 hp, hforeign p (by simpa using hmem)⟩

theorem imports_of_zoo :
    ∃ m, ofDocument (.ofSchemas zoo) (.text "App") {} .owner = .ok m ∧
      (m.classes.map fun c => ((Php.uses c).toOption, (CSharp.uses c).toOption)) = [
        (some "use Zoo\\Core\\Keeper;\nuse JMS\\Serializer\\Annotation\\Discriminator;",
          some "using JsonSubTypes;\nusing Newtonsoft.Json;\nusing App;"),
        (some "use Zoo\\Core\\Animal;", some ""),
        (some "use Zoo\\Core\\Animal;\nuse Zoo\\Core\\Keeper;\nuse App\\Kennel;",
          some "using System.Collections.Generic;\nusing Zoo.Core;"),
        (some "", some "")] ∧
      (∀ c ∈ m.classes, c.type.Homed) ∧
      ∀ c ∈ m.classes, ∃ php csharp, Php.Imports c php ∧ CSharp.Imports c csharp ∧
        ((∀ d ∈ m.classes, '\n' ∉ d.package.display.toList) →
          ∀ line ∈ php ++ csharp, '\n' ∉ line.toList) := by
  obtain ⟨m, hm, hshown⟩ := exists_model_zoo
  obtain ⟨hpackages, hblocks⟩ := Prod.mk.inj hshown
  have hhomed := homed_of_zoo hpackages
  exact ⟨m, hm, hblocks, hhomed, imports_of_ofDocument hm hhomed⟩

end ClassModel

end SchemaClasses
