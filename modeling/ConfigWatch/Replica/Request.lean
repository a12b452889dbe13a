import ConfigWatch.Replica
import ConfigWatch.Store.Typed
/-!
Everything that can be asked of a replica or done to it, as data, so that a run
is a list of requests.
-/
namespace ConfigWatch

/-- A question to a replica, or a change of it. -/
inductive Request where
  | reload (content : Text)
  | deliver (event : Feed.Event)
  | resetRules
  | value (name : Name)
  | valueNamed (fullName : Text)
  | valueD (name : Name) (default : Text)
  | valueNamedD (fullName default : Text)
  | boolean (fullName : Text) (default : Bool)
  | short (fullName : Text) (default : Int16)
  | integer (fullName : Text) (default : Int32)
  | long (fullName : Text) (default : Int64)
  | single (fullName : Text) (default : Numeral.Binary .single)
  | double (fullName : Text) (default : Numeral.Binary .double)
  | namespaces
  | size
  | isEmpty
  | rule (name : Name)
  | ruleNamed (fullName : Text)
  | check (name : Name) (id : Identity)
  | checkNamed (fullName : Text) (id : Identity)
  | cachedRules
  | samples

/-- What a replica answers. -/
inductive Answer where
  | done
  | count (n : Nat)
  | flag (b : Bool)
  | value (v : Option Text)
  | integer (n : Int)
  | float (format : Numeral.Format) (number : Numeral.Binary format)
  | texts (ts : List Text)
  | rule (r : Option Rule)
  | samples (values : List (String × Nat))

namespace Replica

def answer (r : Replica) : Request → Answer × Replica
  | .reload content => let (n, after) := r.reload content; (.count n, after)
  | .deliver event => let (applied, after) := r.deliver event; (.flag applied, after)
  | .resetRules => (.done, r.resetRules)
  | .value name => (.value (r.store.get? name), r)
  | .valueNamed fullName => (.value (r.store.named? fullName), r)
  | .valueD name default => (.value (some (r.store.getD name default)), r)
  | .valueNamedD fullName default => (.value (some (r.store.namedD fullName default)), r)
  | .boolean fullName default => (.flag (r.store.typedD fullName default), r)
  | .short fullName default => (.integer (r.store.typedD fullName default).toInt, r)
  | .integer fullName default => (.integer (r.store.typedD fullName default).toInt, r)
  | .long fullName default => (.integer (r.store.typedD fullName default).toInt, r)
  | .single fullName default => (.float .single (r.store.typedD fullName default), r)
  | .double fullName default => (.float .double (r.store.typedD fullName default), r)
  | .namespaces => (.texts r.store.namespaces, r)
  | .size => (.count r.store.size, r)
  | .isEmpty => (.flag r.store.isEmpty, r)
  | .rule name => let (found, after) := r.rule name; (.rule found, after)
  | .ruleNamed fullName => let (found, after) := r.ruleNamed fullName; (.rule found, after)
  | .check name id => let (allowed, after) := r.check name id; (.flag allowed, after)
  | .checkNamed fullName id =>
    let (allowed, after) := r.checkNamed fullName id; (.flag allowed, after)
  | .cachedRules => (.count r.cachedRules, r)
  | .samples => (.samples r.metrics.samples, r)

def answerAll (r : Replica) : List Request → List Answer × Replica
  | [] => ([], r)
  | request :: rest =>
    let (first, after) := r.answer request
    let (others, last) := after.answerAll rest
    (first :: others, last)

end Replica

end ConfigWatch
