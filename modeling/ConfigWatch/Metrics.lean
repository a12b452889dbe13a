/-!
Counters and gauges about a client. A sample is absent until it is recorded for
the first time, and present from then on, also with the value zero. Counters are not
bounded: that one kept in 64 bits wraps around after `2 ^ 64` steps is left out.
-/
namespace ConfigWatch

/-- The samples recorded so far. -/
structure Metrics where
  reloads : Option Nat
  entriesApplied : Option Nat
  storeEntries : Option Nat
  ruleHits : Option Nat
  ruleMisses : Option Nat
  resubscribes : Option Nat
  sessionState : Option Nat
deriving DecidableEq, Repr

namespace Metrics

def empty : Metrics := ⟨none, none, none, none, none, none, none⟩

def increased (counter : Option Nat) (amount : Nat) : Option Nat :=
  some (counter.getD 0 + amount)

def recordReload (m : Metrics) : Metrics := { m with reloads := increased m.reloads 1 }

/-- Records how many entries a document gave and how many values the store holds
    after it. -/
def recordMerge (m : Metrics) (applied held : Nat) : Metrics :=
  { m with entriesApplied := increased m.entriesApplied applied, storeEntries := some held }

def recordHit (m : Metrics) : Metrics := { m with ruleHits := increased m.ruleHits 1 }

def recordMiss (m : Metrics) : Metrics := { m with ruleMisses := increased m.ruleMisses 1 }

def recordResubscribe (m : Metrics) : Metrics :=
  { m with resubscribes := increased m.resubscribes 1 }

def recordState (m : Metrics) (number : Nat) : Metrics := { m with sessionState := some number }

def samples (m : Metrics) : List (String × Nat) :=
  [("gray_config_reloads_total", m.reloads),
    ("gray_config_entries_applied_total", m.entriesApplied),
    ("gray_config_store_entries", m.storeEntries),
    ("gray_config_rule_cache_total\x7bresult=\"hit\"\x7d", m.ruleHits),
    ("gray_config_rule_cache_total\x7bresult=\"miss\"\x7d", m.ruleMisses),
    ("gray_config_resubscribes_total", m.resubscribes),
    ("gray_config_session_state", m.sessionState)].filterMap
      fun (name, value) => value.map (name, ·)

end Metrics

end ConfigWatch
