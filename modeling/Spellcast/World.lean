import Spellcast.Number.Binary64

/-!
# The world

Entities, the sites a spell can be cast from, and the placeholder that acts when nothing living does. Contexts
refer to entities and sites by number; numbers are never given out twice, so a number that is no longer found
belongs to something that is gone.
-/

namespace Spellcast

/-- The number of an entity; the placeholder has number zero. -/
abbrev EntityId := Nat

abbrev SiteId := Nat

structure Position where
  x : Binary64
  y : Binary64
  z : Binary64
deriving DecidableEq

namespace Position

def origin : Position := ⟨.zero, .zero, .zero⟩

end Position

/-- An entity. It exists as long as it stands in the world or somebody holds on to it. -/
structure Entity where
  id : EntityId
  name : String
  position : Position
  velocity : Position
  standing : Bool
  held : Bool
deriving DecidableEq

namespace Entity

def spawned (id : EntityId) (name : String) : Entity :=
  { id, name, position := .origin, velocity := .origin, standing := true, held := false }

def describe (entity : Entity) : String := s!"{entity.name} ({entity.id})"

end Entity

/-- A block that a spell can be cast from. -/
structure Site where
  label : String
  x : Int
  y : Int
  z : Int
deriving DecidableEq

namespace Site

def describe (site : Site) : String := s!"{site.label} @ {site.x},{site.y},{site.z}"

def position (site : Site) : Position :=
  ⟨.ofInt site.x, .ofInt site.y, .ofInt site.z⟩

end Site

/-- The world: its placeholder, the entities that exist in the order they were spawned, and the sites that
exist. -/
structure World where
  placeholder : Entity
  entities : List Entity
  nextEntity : EntityId
  sites : List (SiteId × Site)
  nextSite : SiteId
deriving DecidableEq

namespace World

/-- A world with nothing in it but the placeholder. -/
def empty : World :=
  { placeholder := .spawned 0 "placeholder", entities := [], nextEntity := 1, sites := [], nextSite := 0 }

/-- The entity with a number, as long as it exists. -/
def entity? (world : World) (id : EntityId) : Option Entity :=
  if id = 0 then some world.placeholder else world.entities.find? (·.id == id)

def modifyEntity (world : World) (id : EntityId) (change : Entity → Entity) : World :=
  if id = 0 then { world with placeholder := change world.placeholder }
  else
    { world with
      entities := world.entities.map fun (entity : Entity) =>
        if entity.id = id then change entity else entity }

def spawn (world : World) (name : String) : EntityId × World :=
  let id := world.nextEntity
  (id, { world with entities := world.entities ++ [.spawned id name], nextEntity := id + 1 })

def standing (world : World) : List Entity := world.entities.filter (·.standing)

def forget (world : World) : World :=
  { world with entities := world.entities.filter fun entity => entity.standing || entity.held }

/-- Takes an entity out of the world; answers its name. -/
def despawn (world : World) (id : EntityId) : Option String × World :=
  match world.standing.find? (·.id == id) with
  | none => (none, world)
  | some entity =>
    let left :=
      { world with
        entities := world.entities.map fun (other : Entity) =>
          if other.id = id then { other with standing := false } else other }
    (some entity.name, left.forget)

/-- Holds on to an entity, so that it exists even when it is taken out of the world. -/
def hold (world : World) (id : EntityId) : World :=
  world.modifyEntity id fun entity => { entity with held := true }

def letGo (world : World) : World :=
  { world with entities := world.entities.map fun (entity : Entity) => { entity with held := false } }.forget

/-- The site with a number, as long as it exists. -/
def site? (world : World) (id : SiteId) : Option Site :=
  (world.sites.find? (·.1 == id)).map (·.2)

def build (world : World) (site : Site) : SiteId × World :=
  let id := world.nextSite
  (id, { world with sites := world.sites ++ [(id, site)], nextSite := id + 1 })

def demolish (world : World) (id : SiteId) : World :=
  { world with sites := world.sites.filter (·.1 != id) }

end World

end Spellcast
