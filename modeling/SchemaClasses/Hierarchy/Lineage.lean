import SchemaClasses.Hierarchy.Component
import SchemaClasses.Value.Names

/-!
# Lineages

The lineage of a component is the component, its base, the base of that, and so on.  Climbing
takes each component it meets out of a pool, so the climb ends: either at a component without a
base, or at a key that has left the pool, which closes a cycle.

The discriminator of a component is the one its base has, or else the first one it declares
itself.  A component and its bases may declare one discriminator between them, and a base must
have one.
-/

namespace SchemaClasses.Lineage

/-- The components of a run, packages settled. -/
abbrev Components := List (Component Scalar)

/-- The component of a key. -/
def find? (components : Components) (key : String) : Option (Component Scalar) :=
  components.find? (·.key == key)

/-- Taking out a component that was found makes the pool smaller. -/
theorem length_eraseP_lt {pool : Components} {key : String} {c : Component Scalar}
    (found : find? pool key = some c) : (pool.eraseP (·.key == key)).length < pool.length := by
  have hmem : c ∈ pool := List.mem_of_find?_eq_some found
  have hkey : (c.key == key) = true := by
    have met := List.find?_some found
    exact met
  have erased : (pool.eraseP (·.key == key)).length = pool.length - 1 :=
    List.length_eraseP_of_mem hmem hkey
  have := List.length_pos_of_mem hmem
  omega

/-- Climb from a key: the components met, and the key that closes a cycle if there is one. -/
def climb (pool : Components) : Option String → Components × Option String
  | none => ([], none)
  | some key =>
    match found : find? pool key with
    | none => ([], some key)
    | some c =>
      have := length_eraseP_lt found
      let (above, closing) := climb (pool.eraseP (·.key == key)) c.base
      (c :: above, closing)
termination_by pool.length

/-- A component with its ancestors, nearest first. -/
structure Line where
  component : Component Scalar
  ancestors : Components

/-- The lineage of a component, or the walk that returns to itself. -/
def of (components : Components) (c : Component Scalar) : Except Failure Line :=
  match climb components (some c.key) with
  | (chain, none) => .ok ⟨c, chain.drop 1⟩
  | (chain, some key) =>
    let closing := ((find? components key).map (·.className)).toList
    Component.failure (.cycle (chain.map (·.className) ++ closing)) (.text c.className)

/-! ## Discriminators -/

/-- The discriminator of the first component of a lineage: its base's, or else its own first. -/
def discriminator? : Components → Option Scalar
  | [] => none
  | c :: ancestors =>
    match discriminator? ancestors with
    | some name => some name
    | none => c.discriminators.head?.filter fun name => !(name == .null)

/-- The names that compete to be the discriminator of a component: its base's and its own. -/
def competing (c : Component Scalar) (ancestors : Components) : OrderedSet Scalar :=
  (OrderedSet.ofList (discriminator? ancestors).toList).insertAll c.discriminators

/-- Check that no component of a lineage has two discriminators, the farthest ancestor first. -/
def checkUnambiguous : Components → Except Failure Unit
  | [] => .ok ()
  | c :: ancestors => do
    checkUnambiguous ancestors
    let names := (competing c ancestors).items
    if 1 < names.length then
      let texts ← textNames names
      Component.failure (.ambiguousDiscriminator texts) (.text c.className)

/-- Check that the base of a component, if it has one, has a discriminator. -/
def checkBase (line : Line) : Except Failure Unit :=
  match line.ancestors with
  | [] => .ok ()
  | base :: rest =>
    match discriminator? (base :: rest) with
    | some _ => .ok ()
    | none =>
      Component.failure (.missingDiscriminator base.className) (.text line.component.className)

end SchemaClasses.Lineage
