import ConfigWatch.Feed.Event
import ConfigWatch.Metrics
import ConfigWatch.Rule
import ConfigWatch.Store
/-!
A replica: the local copy of the configuration, with the release rules that were
read from it. Rules are read when they are asked for and kept by their written
name. Merging a document leaves the kept rules alone; applying an event of the
feed drops them.
-/
namespace ConfigWatch

open Feed (Event)

/-- The rule of a name as the store has it at the moment. -/
def Store.rule? (s : Store) (name : Name) : Option Rule :=
  (s.get? name).bind (Rule.ofText? name.toText)

/-- The store, the rules kept from earlier lookups, and the metrics about both. -/
structure Replica where
  store : Store
  rules : Std.ExtTreeMap Text Rule
  metrics : Metrics

namespace Replica

def fresh : Replica := ⟨.empty, ∅, .empty⟩

/-- Merges a document and counts its entries. The empty document is not even
    recorded. -/
def reload (r : Replica) (content : Text) : Nat × Replica :=
  if content.isEmpty then (0, r)
  else
    let entries := Document.entries content
    let store := r.store.putAll entries
    (entries.length,
      { r with store, metrics := r.metrics.recordMerge entries.length store.size })

def resetRules (r : Replica) : Replica := { r with rules := ∅ }

def cachedRules (r : Replica) : Nat := r.rules.size

/-- Applies an event of the feed. The flag says whether it brought a document. -/
def deliver (r : Replica) (e : Event) : Bool × Replica :=
  match e.payload? with
  | none => (false, r)
  | some content =>
    let merged := (r.reload content).2.resetRules
    (true, { merged with metrics := merged.metrics.recordReload })

/-- The rule of a name: the kept one if there is one, else the one that the store
    has, which is kept from then on. Only what could be read is kept. -/
def rule (r : Replica) (name : Name) : Option Rule × Replica :=
  if name.isComplete then
    match r.rules[name.toText]? with
    | some kept => (some kept, { r with metrics := r.metrics.recordHit })
    | none =>
      let missed := { r with metrics := r.metrics.recordMiss }
      match r.store.rule? name with
      | some read => (some read, { missed with rules := r.rules.insert name.toText read })
      | none => (none, missed)
  else (none, r)

def ruleNamed (r : Replica) (fullName : Text) : Option Rule × Replica :=
  match Name.ofText? fullName with
  | some name => r.rule name
  | none => (none, r)

def check (r : Replica) (name : Name) (id : Identity) : Bool × Replica :=
  let (found, after) := r.rule name
  (Rule.admits found id, after)

/-- Whether the rule of a written name admits an identity. -/
def checkNamed (r : Replica) (fullName : Text) (id : Identity) : Bool × Replica :=
  let (found, after) := r.ruleNamed fullName
  (Rule.admits found id, after)

end Replica

end ConfigWatch
