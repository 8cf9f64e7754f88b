import SchemaClasses.Proofs.Evaluation
import SchemaClasses.Proofs.PropertyType

/-!
# Two evaluations side by side

Two documents may say the same thing in different words.  Then every step of the one evaluation has
its counterpart in the other, and what the two give is alike: both succeed, with results that stand
in some relation, or both fail (`EndAlike`).  This file follows the two evaluations from their
components to their models.

Components are alike if they declare the same discriminators, in whatever order, and have the same
properties up to the mark by which a property declares itself a discriminator
(`Component.Alike`).  The order is seen in one place only: a component with several discriminators
is reported with all of them.  If it has no more than one, the order is lost, and so the lineages
hand down the same discriminator (`alike_checkUnambiguous`).  From there on the two evaluations do
the same, as nothing that builds a class looks at the mark (`alike_ofComponents`).
-/

namespace SchemaClasses

/-! ## Outcomes -/

section Outcomes

variable {α α' β β' γ ε ε' : Type}

/-- Two steps end alike: both succeed with related results, or both fail with related failures. -/
inductive EndAlike (E : ε → ε' → Prop) (R : α → β → Prop) : Except ε α → Except ε' β → Prop where
  | ok {a : α} {b : β} (result : R a b) : EndAlike E R (.ok a) (.ok b)
  | error {e : ε} {e' : ε'} (failure : E e e') : EndAlike E R (.error e) (.error e')

namespace EndAlike

variable {E : ε → ε' → Prop} {R : α → β → Prop} {S : α' → β' → Prop} {x : Except ε α}
  {y : Except ε' β}

lemma ok_or_error (h : EndAlike E R x y) :
    (∃ a b, x = .ok a ∧ y = .ok b ∧ R a b) ∨ ∃ e e', x = .error e ∧ y = .error e' ∧ E e e' := by
  cases h with
  | ok result => exact Or.inl ⟨_, _, rfl, rfl, result⟩
  | error failure => exact Or.inr ⟨_, _, rfl, rfl, failure⟩

lemma mono {E' : ε → ε' → Prop} {R' : α → β → Prop} (hE : ∀ e e', E e e' → E' e e')
    (hR : ∀ a b, x = .ok a → y = .ok b → R a b → R' a b) (h : EndAlike E R x y) :
    EndAlike E' R' x y := by
  cases h with
  | ok result => exact .ok (hR _ _ rfl rfl result)
  | error failure => exact .error (hE _ _ failure)

lemma trans {ε'' : Type} {E' : ε' → ε'' → Prop} {R' : β → γ → Prop} {z : Except ε'' γ}
    (h : EndAlike E R x y) (h' : EndAlike E' R' y z) :
    EndAlike (fun e e'' => ∃ e', E e e' ∧ E' e' e'') (fun a c => ∃ b, R a b ∧ R' b c) x z := by
  cases h with
  | ok result =>
      cases h' with
      | ok result' => exact .ok ⟨_, result, result'⟩
  | error failure =>
      cases h' with
      | error failure' => exact .error ⟨_, failure, failure'⟩

lemma bind {f : α → Except ε α'} {g : β → Except ε' β'} (h : EndAlike E R x y)
    (hstep : ∀ a b, x = .ok a → y = .ok b → R a b → EndAlike E S (f a) (g b)) :
    EndAlike E S (x >>= f) (y >>= g) := by
  cases h with
  | ok result => exact hstep _ _ rfl rfl result
  | error failure => exact .error failure

lemma traverse {f : α → Except ε α'} {g : β → Except ε' β'} {as : List α} {bs : List β}
    (h : List.Forall₂ R as bs) (hstep : ∀ a b, R a b → EndAlike E S (f a) (g b)) :
    EndAlike E (List.Forall₂ S) (traverse f as) (traverse g bs) := by
  induction h with
  | nil => exact .ok .nil
  | @cons a b as bs hab _ ih =>
      rw [SchemaClasses.traverse, SchemaClasses.traverse]
      rcases (hstep a b hab).ok_or_error with
        ⟨a', b', hfirst, hfirst', result⟩ | ⟨e, e', hfirst, hfirst', failure⟩
      · rcases ih.ok_or_error with
          ⟨as', bs', hrest, hrest', results⟩ | ⟨e, e', hrest, hrest', failure⟩
        · rw [hfirst, hfirst', hrest, hrest']
          exact .ok (.cons result results)
        · rw [hfirst, hfirst', hrest, hrest']
          exact .error failure
      · rw [hfirst, hfirst']
        exact .error failure

end EndAlike

lemma alike_of_eq {E : ε → ε → Prop} (hE : ∀ e, E e e) {R : α → α → Prop} {x y : Except ε α}
    (h : x = y) (hR : ∀ a, x = .ok a → R a a) : EndAlike E R x y := by
  subst h
  cases x with
  | ok a => exact .ok (hR a rfl)
  | error e => exact .error (hE e)

/-- Two computations that begin with the same step end alike, if what follows it does. -/
lemma EndAlike.bind_same {E : ε → ε → Prop} (hE : ∀ e, E e e) {S : α' → β' → Prop} {x : Except ε α}
    {f : α → Except ε α'} {g : α → Except ε β'} (hstep : ∀ a, EndAlike E S (f a) (g a)) :
    EndAlike E S (x >>= f) (x >>= g) := by
  cases x with
  | ok a => exact hstep a
  | error e => exact .error (hE e)

lemma traverse_eq_of_forall₂ {R : α → β → Prop} {f : α → Except ε γ} {g : β → Except ε γ}
    {as : List α} {bs : List β} (h : List.Forall₂ R as bs) (agree : ∀ a b, R a b → f a = g b) :
    traverse f as = traverse g bs := by
  induction h with
  | nil => rfl
  | cons hab _ ih => rw [traverse, traverse, agree _ _ hab, ih]

end Outcomes

/-- Two failures are alike: they are the same, or they report the several discriminators of one
class in different orders. -/
inductive Failure.Alike : Failure → Failure → Prop where
  | same (e : Failure) : Alike e e
  | reordered (className : Scalar) {names names' : List String} (perm : names.Perm names') :
      Alike (.model ⟨.ambiguousDiscriminator names, some className, none⟩)
        (.model ⟨.ambiguousDiscriminator names', some className, none⟩)

lemma EndAlike.alike {α β : Type} {R : α → β → Prop} {x : Except Failure α} {y : Except Failure β}
    (h : EndAlike (· = ·) R x y) : EndAlike Failure.Alike R x y := by
  refine h.mono ?_ fun _ _ _ _ result => result
  rintro e _ rfl
  exact .same e

/-! ## Related lists -/

section Lists

variable {α β : Type} {R : α → β → Prop} {as : List α} {bs : List β} {p : α → Bool} {q : β → Bool}

lemma find?_of_forall₂ (h : List.Forall₂ R as bs) (agree : ∀ a b, R a b → p a = q b) :
    (as.find? p = none ∧ bs.find? q = none) ∨
      ∃ a b, as.find? p = some a ∧ bs.find? q = some b ∧ R a b := by
  induction h with
  | nil => exact Or.inl ⟨rfl, rfl⟩
  | @cons a b as bs hab _ ih =>
      rw [List.find?_cons, List.find?_cons, agree a b hab]
      cases q b with
      | true => exact Or.inr ⟨a, b, rfl, rfl, hab⟩
      | false => exact ih

lemma eraseP_of_forall₂ (h : List.Forall₂ R as bs) (agree : ∀ a b, R a b → p a = q b) :
    List.Forall₂ R (as.eraseP p) (bs.eraseP q) := by
  induction h with
  | nil => exact .nil
  | @cons a b as bs hab hrest ih =>
      rw [List.eraseP_cons, List.eraseP_cons, agree a b hab]
      cases q b with
      | true => exact hrest
      | false => exact .cons hab ih

lemma filter_of_forall₂ (h : List.Forall₂ R as bs) (agree : ∀ a b, R a b → p a = q b) :
    List.Forall₂ R (as.filter p) (bs.filter q) := by
  induction h with
  | nil => exact .nil
  | @cons a b as bs hab _ ih =>
      rw [List.filter_cons, List.filter_cons, agree a b hab]
      cases q b with
      | true => exact .cons hab ih
      | false => exact ih

end Lists

/-! ## Components -/

/-- The mark by which a property declares itself a discriminator. -/
def discriminatorMark : String := "x-discriminator"

/-- Two mappings that differ under one key at most. -/
def Mapping.SameBut (key : String) (m m' : Mapping) : Prop :=
  ∀ name, name ≠ key → Mapping.field? m name = Mapping.field? m' name

/-- Two properties with one name whose schemas differ in the mark at most. -/
def SameProperty (e e' : Scalar × Mapping) : Prop :=
  e.1 = e'.1 ∧ Mapping.SameBut discriminatorMark e.2 e'.2

lemma sameProperty_refl (e : Scalar × Mapping) : SameProperty e e := ⟨rfl, fun _ _ => rfl⟩

/-- **Two components say the same**, except for the marks on their properties and for the order of
their discriminators. -/
structure Component.Alike {Package : Type} (c c' : Component Package) : Prop where
  key : c.key = c'.key
  className : c.className = c'.className
  package : c.package = c'.package
  base : c.base = c'.base
  properties : List.Forall₂ SameProperty c.properties c'.properties
  discriminators : ∀ n, n ∈ c.discriminators ↔ n ∈ c'.discriminators
  texts : ∀ n ∈ c.discriminators, ∃ name, n = .text name

lemma Component.alike_refl {Package : Type} {c : Component Package}
    (htexts : ∀ n ∈ c.discriminators, ∃ name, n = .text name) : c.Alike c :=
  ⟨rfl, rfl, rfl, rfl, List.forall₂_same.2 fun _ _ => sameProperty_refl _, fun _ => Iff.rfl, htexts⟩

lemma Component.Alike.type {c c' : Component Scalar} (h : c.Alike c') : c.type = c'.type := by
  rw [Component.type, Component.type, h.className, h.package]

/-! ## Lineages -/

namespace Lineage

variable {components components' chain chain' : Components} {c c' : Component Scalar}

lemma find?_of_alike (h : List.Forall₂ Component.Alike components components') (key : String) :
    (find? components key = none ∧ find? components' key = none) ∨
      ∃ c c', find? components key = some c ∧ find? components' key = some c' ∧ c.Alike c' :=
  find?_of_forall₂ h fun a b hab => by rw [hab.key]

/-- The climbs from one key meet alike components, and close at the same key. -/
lemma climb_of_alike (h : List.Forall₂ Component.Alike components components')
    (start : Option String) :
    List.Forall₂ Component.Alike (climb components start).1 (climb components' start).1 ∧
      (climb components start).2 = (climb components' start).2 := by
  induction components, start using climb.induct generalizing components' with
  | case1 pool =>
      rw [climb, climb]
      exact ⟨.nil, rfl⟩
  | case2 pool key hnone =>
      rcases find?_of_alike h key with ⟨-, hnone'⟩ | ⟨c, c', hc, -, -⟩
      · rw [climb_of_find?_none hnone, climb_of_find?_none hnone']
        exact ⟨.nil, rfl⟩
      · rw [hnone] at hc
        cases hc
  | case3 pool key c hc _ above closing hclimb ih =>
      rcases find?_of_alike h key with ⟨hnone, -⟩ | ⟨d, c', hd, hc', halike⟩
      · rw [hnone] at hc
        cases hc
      · obtain rfl : c = d := Option.some.inj (hc.symm.trans hd)
        have hpool := eraseP_of_forall₂ (p := (·.key == key)) (q := (·.key == key)) h
          fun a b hab => by rw [hab.key]
        obtain ⟨habove, hclosing⟩ := ih hpool
        rw [climb_of_find?_some hc, climb_of_find?_some hc', ← halike.base]
        exact ⟨.cons halike habove, hclosing⟩

/-- Two components of a run with their ancestors. -/
def Line.Alike (line line' : Line) : Prop :=
  line.component.Alike line'.component ∧
    List.Forall₂ Component.Alike line.ancestors line'.ancestors

lemma map_className_of_alike (h : List.Forall₂ Component.Alike chain chain') :
    chain.map (·.className) = chain'.map (·.className) :=
  map_eq_of_forall₂ h fun _ _ hab => hab.className

lemma alike_of (h : List.Forall₂ Component.Alike components components') (hc : c.Alike c') :
    EndAlike (· = ·) Line.Alike (Lineage.of components c) (Lineage.of components' c') := by
  obtain ⟨hchain, hclosing⟩ := climb_of_alike h (some c.key)
  rw [Lineage.of, Lineage.of, ← hc.key]
  cases hclimb : climb components (some c.key) with
  | mk chain closing =>
      cases hclimb' : climb components' (some c.key) with
      | mk chain' closing' =>
          rw [hclimb, hclimb'] at hchain hclosing
          obtain rfl : closing = closing' := hclosing
          cases closing with
          | none => exact .ok ⟨hc, List.forall₂_drop 1 hchain⟩
          | some key =>
              have hname : (find? components key).map (·.className) =
                  (find? components' key).map (·.className) := by
                rcases find?_of_alike h key with ⟨hnone, hnone'⟩ | ⟨d, d', hd, hd', halike⟩
                · rw [hnone, hnone']
                · rw [hd, hd', Option.map_some, Option.map_some, halike.className]
              dsimp only
              rw [hname, map_className_of_alike hchain, hc.className]
              exact .error rfl

/-! ## Discriminators -/

lemma textDiscriminators_of_alike (h : List.Forall₂ Component.Alike chain chain') :
    TextDiscriminators chain ∧ TextDiscriminators chain' := by
  refine ⟨fun c hc => ?_, fun c' hc' n hn => ?_⟩
  · obtain ⟨c', -, halike⟩ := forall₂_left h hc
    exact halike.texts
  · obtain ⟨c, -, halike⟩ := forall₂_right h hc'
    exact halike.texts n ((halike.discriminators n).2 hn)

lemma nodup_items (s : OrderedSet Scalar) : s.items.Nodup := by
  refine s.distinct.imp ?_
  rintro a b hdiffer rfl
  simp at hdiffer

/-- The same names compete in alike components, if their chains hand down the same one. -/
lemma perm_competing (hc : c.Alike c') (h : List.Forall₂ Component.Alike chain chain')
    (hsame : discriminator? chain = discriminator? chain') :
    (competing c chain).items.Perm (competing c' chain').items := by
  obtain ⟨htexts, htexts'⟩ := textDiscriminators_of_alike (.cons hc h)
  refine (List.perm_ext_iff_of_nodup (nodup_items _) (nodup_items _)).2 fun n => ?_
  rw [mem_competing_iff htexts, mem_competing_iff htexts', hsame, hc.discriminators]

/-- Where at most one name competes, the order in which a component declares its own is lost. -/
lemma discriminator?_of_alike (hc : c.Alike c') (h : List.Forall₂ Component.Alike chain chain')
    (hsame : discriminator? chain = discriminator? chain')
    (hone : (competing c chain).items.length ≤ 1) :
    discriminator? (c :: chain) = discriminator? (c' :: chain') := by
  obtain ⟨htexts, -⟩ := textDiscriminators_of_alike (.cons hc h)
  have hmem : ∀ n ∈ c.discriminators, n ∈ (competing c chain).items := fun n hn =>
    (mem_competing_iff htexts n).2 (Or.inr hn)
  have hhead : c.discriminators.head? = c'.discriminators.head? := by
    cases hown : c.discriminators with
    | nil =>
        cases hown' : c'.discriminators with
        | nil => rfl
        | cons n' rest' =>
            have hn' := (hc.discriminators n').2 (hown' ▸ List.mem_cons_self)
            simp [hown] at hn'
    | cons n rest =>
        cases hown' : c'.discriminators with
        | nil =>
            have hn := (hc.discriminators n).1 (hown ▸ List.mem_cons_self)
            simp [hown'] at hn
        | cons n' rest' =>
            have hn := hmem n (hown ▸ List.mem_cons_self)
            have hn' := hmem n' ((hc.discriminators n').2 (hown' ▸ List.mem_cons_self))
            rw [List.head?_cons, List.head?_cons,
              (length_items_le_one_iff _ (exists_text_of_mem_competing htexts)).1 hone n hn n' hn']
  rw [discriminator?, discriminator?, hsame, hhead]

/-- **Alike lineages are ambiguous alike.**  If they are not, they hand down the same
discriminator. -/
lemma alike_checkUnambiguous (h : List.Forall₂ Component.Alike chain chain') :
    EndAlike Failure.Alike (fun _ _ => discriminator? chain = discriminator? chain')
      (checkUnambiguous chain) (checkUnambiguous chain') := by
  induction h with
  | nil =>
      rw [checkUnambiguous]
      exact .ok rfl
  | @cons c c' chain chain' hc hrest ih =>
      rw [checkUnambiguous, checkUnambiguous]
      refine ih.bind fun _ _ _ _ hsame => ?_
      -- The same names compete: if there are several, both report them, and if there is only one,
      -- its place among the declared ones does not matter.
      have hperm := perm_competing hc hrest hsame
      dsimp only
      by_cases hmany : 1 < (competing c chain).items.length
      · obtain ⟨htexts, htexts'⟩ := textDiscriminators_of_alike (.cons hc hrest)
        obtain ⟨names, hnames⟩ := exists_texts (exists_text_of_mem_competing htexts)
        obtain ⟨names', hnames'⟩ := exists_texts (exists_text_of_mem_competing htexts')
        have hreordered : names.Perm names' := by
          have hshown := hperm.map Scalar.display
          rw [hnames, hnames', List.map_map, List.map_map] at hshown
          have hid : Scalar.display ∘ Scalar.text = id := rfl
          rwa [hid, List.map_id, List.map_id] at hshown
        rw [if_pos hmany, if_pos (hperm.length_eq ▸ hmany), hnames, hnames', textNames_map_text,
          textNames_map_text, hc.className]
        exact .error (.reordered (.text c'.className) hreordered)
      · rw [if_neg hmany, if_neg (hperm.length_eq ▸ hmany)]
        exact .ok (discriminator?_of_alike hc hrest hsame (Nat.not_lt.1 hmany))

lemma discriminator?_of_unambiguous (h : List.Forall₂ Component.Alike chain chain')
    (hone : ∃ u, checkUnambiguous chain = .ok u) :
    discriminator? chain = discriminator? chain' := by
  obtain ⟨u, hu⟩ := hone
  rcases (alike_checkUnambiguous h).ok_or_error with ⟨-, -, -, -, hsame⟩ | ⟨e, -, he, -⟩
  · exact hsame
  · rw [hu] at he
    cases he

lemma unambiguous_of_cons (h : ∃ u, checkUnambiguous (c :: chain) = .ok u) :
    ∃ u, checkUnambiguous chain = .ok u := by
  obtain ⟨u, hu⟩ := h
  rw [checkUnambiguous, bind_eq_ok] at hu
  obtain ⟨u', hu', -⟩ := hu
  exact ⟨u', hu'⟩

lemma checkBase_of_alike {line line' : Line} (h : line.Alike line')
    (hsame : discriminator? line.ancestors = discriminator? line'.ancestors) :
    checkBase line = checkBase line' := by
  obtain ⟨c, ancestors⟩ := line
  obtain ⟨c', ancestors'⟩ := line'
  obtain ⟨hc, hancestors⟩ := h
  cases hancestors with
  | nil => rfl
  | cons hbase hrest =>
      rw [checkBase, checkBase]
      simp only at hsame hc ⊢
      rw [hsame, hbase.className, hc.className]

end Lineage

/-! ## Types of properties -/

namespace Scope

variable {scope scope' : Scope} {schema schema' : Mapping}

lemma firstCombinator_of_sameBut (h : Mapping.SameBut discriminatorMark schema schema') :
    firstCombinator schema combinators = firstCombinator schema' combinators := by
  have hnames : ∀ names : List String, discriminatorMark ∉ names →
      firstCombinator schema names = firstCombinator schema' names := by
    intro names hmark
    induction names with
    | nil => rfl
    | cons name rest ih =>
        rw [List.mem_cons, not_or] at hmark
        rw [firstCombinator, firstCombinator, h name (Ne.symm hmark.1), ih hmark.2]
  exact hnames combinators (by decide)

/-- The mark plays no part in the type of a property. -/
lemma typeOf_of_sameBut (h : Mapping.SameBut discriminatorMark schema schema') :
    scope.typeOf schema = scope.typeOf schema' := by
  have hcombinator := firstCombinator_of_sameBut h
  have href := h "$ref" (by decide)
  cases hfree : Mapping.field? schema "$ref" with
  | some ref => rw [typeOf_of_reference hfree, typeOf_of_reference (href.symm.trans hfree)]
  | none =>
      have hfree' := href.symm.trans hfree
      cases hgiven : firstCombinator schema combinators with
      | none =>
          rw [typeOf_eq_of_plain hfree hgiven,
            typeOf_eq_of_plain hfree' (hcombinator.symm.trans hgiven), h "type" (by decide)]
      | some given =>
          obtain ⟨name, v⟩ := given
          have hgiven' := hcombinator.symm.trans hgiven
          by_cases hsingle : ∃ inner ring outer, v = .list [.mapping inner ring] outer
          · obtain ⟨inner, ring, outer, rfl⟩ := hsingle
            rw [typeOf_of_wrapped hfree hgiven, typeOf_of_wrapped hfree' hgiven']
          · have hother : ∀ inner ring outer, v ≠ .list [.mapping inner ring] outer :=
              fun inner ring outer hv => hsingle ⟨inner, ring, outer, hv⟩
            rw [typeOf_of_several hfree hgiven hother, typeOf_of_several hfree' hgiven' hother]

lemma wrapsEndlessly_of_sameBut (h : Mapping.SameBut discriminatorMark schema schema') :
    wrapsEndlessly [] schema = wrapsEndlessly [] schema' := by
  have hcombinator := firstCombinator_of_sameBut h
  have href := h "$ref" (by decide)
  cases hfree : Mapping.field? schema "$ref" with
  | some ref => rw [wrapsEndlessly, wrapsEndlessly, ← href, hfree]
  | none =>
      by_cases hsingle : ∃ name inner ring outer,
          firstCombinator schema combinators = some (name, .list [.mapping inner ring] outer)
      · obtain ⟨name, inner, ring, outer, hgiven⟩ := hsingle
        rw [wrapsEndlessly_of_wrapped hfree hgiven, wrapsEndlessly_of_wrapped
          (href.symm.trans hfree) (hcombinator.symm.trans hgiven)]
      · have hother : ∀ name inner ring outer, firstCombinator schema combinators ≠
            some (name, .list [.mapping inner ring] outer) :=
          fun name inner ring outer hgiven => hsingle ⟨name, inner, ring, outer, hgiven⟩
        rw [wrapsEndlessly_of_other hother, wrapsEndlessly_of_other (hcombinator ▸ hother)]

/-- Two scopes with alike components. -/
structure Alike (scope scope' : Scope) : Prop where
  registry : scope.registry = scope'.registry
  classNames : scope.classNames = scope'.classNames
  defaultAccessibility : scope.defaultAccessibility = scope'.defaultAccessibility
  components : List.Forall₂ Component.Alike scope.components scope'.components

namespace Alike

lemma typeOfKey (h : scope.Alike scope') (key : String) :
    scope.typeOfKey key = scope'.typeOfKey key := by
  rw [Scope.typeOfKey, Scope.typeOfKey]
  rcases Lineage.find?_of_alike h.components key with ⟨hnone, hnone'⟩ | ⟨c, c', hc, hc', halike⟩
  · rw [hnone, hnone']
  · rw [hc, hc', Option.map_some, Option.map_some, halike.type]

lemma typeOf (h : scope.Alike scope') (schema : Mapping) :
    scope.typeOf schema = scope'.typeOf schema := by
  have hkeys : scope.typeOfKey = scope'.typeOfKey := funext h.typeOfKey
  have hname : scope.typeOfName = scope'.typeOfName := by
    funext name
    rw [typeOfName, typeOfName, h.registry, h.classNames, hkeys]
  induction schema using typeOf.induct with
  | case1 schema ref href =>
      rw [typeOf_of_reference href, typeOf_of_reference href, typeOfReference, typeOfReference,
        h.classNames, hkeys]
  | case2 schema hfree name inner ring outer hgiven _ ih =>
      rw [typeOf_of_wrapped hfree hgiven, typeOf_of_wrapped hfree hgiven, ih]
  | case3 schema hfree name v hother hgiven =>
      rw [typeOf_of_several hfree hgiven hother, typeOf_of_several hfree hgiven hother]
  | case4 schema hfree hplain hnone =>
      rw [typeOf_eq_of_plain hfree hplain, typeOf_eq_of_plain hfree hplain, hname]
  | case5 schema hfree hplain v hv name htext =>
      rw [typeOf_eq_of_plain hfree hplain, typeOf_eq_of_plain hfree hplain, hname]
  | case6 schema hfree hplain v hv htext =>
      rw [typeOf_eq_of_plain hfree hplain, typeOf_eq_of_plain hfree hplain, hname]

lemma variableOf (h : scope.Alike scope') (className : String) (discriminator : Option Scalar)
    {property property' : Scalar × Mapping} (hsame : SameProperty property property') :
    scope.variableOf className discriminator property =
      scope'.variableOf className discriminator property' := by
  obtain ⟨name, schema⟩ := property
  obtain ⟨name', schema'⟩ := property'
  obtain ⟨rfl, hschema⟩ : name = name' ∧ _ := hsame
  have haccessibility : scope.accessibilityOf schema = scope'.accessibilityOf schema' := by
    rw [accessibilityOf, accessibilityOf, h.defaultAccessibility,
      hschema "x-accessibility" (by decide)]
  rw [Scope.variableOf, Scope.variableOf]
  simp only [wrapsEndlessly_of_sameBut hschema, h.typeOf schema, typeOf_of_sameBut hschema,
    haccessibility]

end Alike

/-! ## Classes -/

lemma get?_of_sameProperty {properties properties' : Entries Scalar Mapping}
    (h : List.Forall₂ SameProperty properties properties') (key : Scalar) :
    Mapping.SameBut discriminatorMark ((Entries.get? properties key).getD [])
      ((Entries.get? properties' key).getD []) := by
  rcases find?_of_forall₂ (p := (·.1 == key)) (q := (·.1 == key)) h
    fun a b hab => by rw [hab.1] with ⟨hnone, hnone'⟩ | ⟨e, e', he, he', hsame⟩
  · rw [Entries.get?, Entries.get?, hnone, hnone']
    exact fun _ _ => rfl
  · rw [Entries.get?, Entries.get?, he, he']
    exact hsame.2

lemma selectingValue_of_alike {c c' : Component Scalar} (h : c.Alike c')
    (discriminator : Option Scalar) :
    selectingValue c discriminator = selectingValue c' discriminator := by
  have hsame := get?_of_sameProperty h.properties (discriminator.getD .null)
  rw [selectingValue, selectingValue]
  simp only [hsame "const" (by decide), hsame "enum" (by decide), h.className]

lemma linkSubclasses_of_alike {children children' : Lineage.Components}
    (h : List.Forall₂ Component.Alike children children') (className : String)
    (discriminator : Option Scalar) (linked : List SubclassRef) :
    linkSubclasses className discriminator linked children =
      linkSubclasses className discriminator linked children' := by
  induction h generalizing linked with
  | nil => rfl
  | @cons c c' _ _ hc _ ih =>
      rw [linkSubclasses, linkSubclasses, selectingValue_of_alike hc, hc.className, hc.type]
      simp only [ih]

lemma Alike.assemble (h : scope.Alike scope') {c c' : Component Scalar} (hc : c.Alike c')
    {ancestors ancestors' : Lineage.Components}
    (hsame : Lineage.discriminator? (c :: ancestors) = Lineage.discriminator? (c' :: ancestors'))
    (superClass : Option ClassDef) :
    scope.assemble c ancestors superClass = scope'.assemble c' ancestors' superClass := by
  have hfields : ∀ d, traverse (scope.variableOf c'.className d) c.properties =
      traverse (scope'.variableOf c'.className d) c'.properties := fun d =>
    traverse_eq_of_forall₂ hc.properties fun _ _ => h.variableOf _ d
  have hsubclasses : ∀ d, scope.subclassesOf c d = scope'.subclassesOf c' d := by
    intro d
    have hchildren := filter_of_forall₂ (p := (·.base == some c.key)) (q := (·.base == some c'.key))
      h.components fun a b hab => by rw [hab.base, hc.key]
    rw [subclassesOf, subclassesOf, hc.className]
    exact linkSubclasses_of_alike hchildren _ d []
  rw [Scope.assemble, Scope.assemble]
  simp only [hsame, hc.className, hfields, hsubclasses, hc.package, hc.key]

/-- **Alike lineages make the same class**, if they are not ambiguous. -/
lemma Alike.build (h : scope.Alike scope') {c c' : Component Scalar} (hc : c.Alike c')
    {ancestors ancestors' : Lineage.Components}
    (hancestors : List.Forall₂ Component.Alike ancestors ancestors')
    (hone : ∃ u, Lineage.checkUnambiguous (c :: ancestors) = .ok u) :
    scope.build c ancestors = scope'.build c' ancestors' := by
  induction hancestors generalizing c c' with
  | nil =>
      rw [Scope.build, Scope.build]
      exact h.assemble hc (Lineage.discriminator?_of_unambiguous (.cons hc .nil) hone) none
  | @cons base base' rest rest' hbase hrest ih =>
      rw [Scope.build, Scope.build, ih hbase (Lineage.unambiguous_of_cons hone)]
      cases scope'.build base' rest' with
      | error e => rfl
      | ok s =>
          exact h.assemble hc
            (Lineage.discriminator?_of_unambiguous (.cons hc (.cons hbase hrest)) hone) (some s)

end Scope

/-! ## Models -/

/-- **Alike components have the same model**, or fail alike. -/
theorem ClassModel.alike_ofComponents {components components' : Lineage.Components}
    (h : List.Forall₂ Component.Alike components components') (registry : TypeRegistry)
    (accessibility : Accessibility) (classNames : List (Scalar × String)) :
    EndAlike Failure.Alike (· = ·) (ofComponents registry accessibility classNames components)
      (ofComponents registry accessibility classNames components') := by
  have hscope : Scope.Alike ⟨registry, components, classNames, accessibility⟩
      ⟨registry, components', classNames, accessibility⟩ := ⟨rfl, rfl, rfl, h⟩
  rw [ofComponents, ofComponents]
  refine (EndAlike.traverse h fun _ _ => Lineage.alike_of h).alike.bind
    fun lines lines' _ _ hlines => ?_
  have hchecks : EndAlike Failure.Alike (List.Forall₂ fun _ _ => True)
      (traverse (fun line : Lineage.Line =>
        Lineage.checkUnambiguous (line.component :: line.ancestors)) lines)
      (traverse (fun line : Lineage.Line =>
        Lineage.checkUnambiguous (line.component :: line.ancestors)) lines') :=
    EndAlike.traverse hlines fun line line' hline =>
      (Lineage.alike_checkUnambiguous (.cons hline.1 hline.2)).mono (fun _ _ he => he)
        fun _ _ _ _ _ => trivial
  refine hchecks.bind fun us _ hus _ _ => ?_
  -- From here on no lineage is ambiguous, so the two hand down the same discriminators.
  have hone := exists_forall₂_iff.1 ⟨us, traverse_eq_ok_iff.1 hus⟩
  have hlines := (List.forall₂_and_left _ _).2 ⟨hone, hlines⟩
  have hbases : traverse Lineage.checkBase lines = traverse Lineage.checkBase lines' :=
    traverse_eq_of_forall₂ hlines fun line line' hline =>
      Lineage.checkBase_of_alike hline.2 (Lineage.discriminator?_of_unambiguous hline.2.2
        (Lineage.unambiguous_of_cons hline.1))
  have hclasses := traverse_eq_of_forall₂ hlines fun line line' hline =>
    hscope.build hline.2.1 hline.2.2 hline.1
  rw [hbases]
  dsimp only
  rw [hclasses]
  exact alike_of_eq .same rfl fun _ _ => rfl

end SchemaClasses
