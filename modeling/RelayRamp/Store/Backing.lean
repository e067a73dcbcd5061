import RelayRamp.Store.Durable
import RelayRamp.Store.Memory

/-!
# The stores to choose from

An engine runs over a store in memory or over one in tables; which one is a matter of configuration.
-/
namespace RelayRamp.Store

inductive Backing where
  | memory (store : MemoryStore)
  | durable (store : DurableStore)
  deriving BEq, Repr

namespace Backing

def call (s : Backing) (c : StoreCall α) : Except StoreFault α × Backing :=
  match s with
  | memory store => (store.call c).map id memory
  | durable store => (store.call c).map id durable

/-- Opens the store again; one in memory simply stays. -/
def reopen : Backing → Except StoreFault Backing
  | memory store => .ok (memory store)
  | durable store => durable <$> store.reopen

end Backing

instance : ThrottleStore Backing := ⟨fun c s => s.call c⟩

end RelayRamp.Store
