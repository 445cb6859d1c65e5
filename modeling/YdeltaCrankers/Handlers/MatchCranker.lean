import YdeltaCrankers.Handlers.Context

/-!
# `src/handlers/match_cranker.rs`

`MatchCrank` on the markets whose book is crossed, gated by a simulation and by the fill count in
its logs.
-/

namespace YdeltaCrankers

open Interaction

namespace MatchCrankerHandler

variable (ctx : HandlerContext)

/-- The first token of `sol_log_data`'s text; a blank text is its own token. -/
def firstToken (rest : List Char) : List Char :=
  let token := (rest.dropWhile isWhitespace).takeWhile fun c => !isWhitespace c
  if token.isEmpty then rest else token

/-- The fill count of one log line, `none` if it is not a `MatchCrankLog`. -/
def lineFills (line : String) : Option UInt32 := do
  let rest ← line.toList.dropPrefix? "Program data: ".toList
  let bytes ← base64Decode (firstToken rest)
  if bytes.length < 80 ∨ bytes.take 8 ≠ ctx.y.matchCrankLogDiscriminant then none
  else some (UInt32.ofNat (leNat ((bytes.drop 72).take 4)))

/-- The fill count of the first `MatchCrankLog` of a simulation's logs. -/
def parseMatchCrankFills (logs : List String) : Option UInt32 := logs.findSome? (lineFills ctx)

/-- The feeds of the two banks the cranker has to refresh itself. -/
def pullFeeds (debtBank collateralBank : BankInfo) : List Pubkey :=
  (if debtBank.isSwitchboardPull then [debtBank.primaryOracle] else []) ++
    if collateralBank.isSwitchboardPull then [collateralBank.primaryOracle] else []

/-- The Switchboard update of both feeds, empty when there is none to make. -/
def fetchSwbBundle (debtBank collateralBank : BankInfo) : Async Service SwbBundle :=
  match ctx.swbCranker with
  | none => return ([], [])
  | some cranker =>
    let feeds := pullFeeds debtBank collateralBank
    if feeds.isEmpty then return ([], [])
    else do
      match ← Service.caught (cranker.fetchUpdateIxs feeds) with
      | .ok bundle => return bundle
      | .error _ => return ([], [])

/-- Crank a market, with its two banks. -/
def crankWith (market : MarketView) (debtBank collateralBank : BankInfo) :
    Async Service Bool := do
  let payerPk := ctx.signers.feePayer
  let (swbIxs, swbLuts) ← fetchSwbBundle ctx debtBank collateralBank
  let ix : Instruction := .matchCrank {
    vaultBank := debtBank.bank
    market := market.address
    cranker := payerPk
    debtBank := debtBank.bank
    marginfiGroup := ctx.cfg.marginfiGroup
    collateralBank := collateralBank.bank
    debtOracles := debtBank.oracles
    collateralOracles := collateralBank.oracles
    maxFills := ctx.cfg.handlers.matchCrankerMaxFills }
  let bundle := swbIxs ++ [ix]
  let sim ← Service.rpc (.simulateV0 bundle swbLuts payerPk)
  if !sim.ok then return false
  else if parseMatchCrankFills ctx sim.logs = some 0 then return false
  else do
    -- Logs without a `MatchCrankLog` were most likely truncated: submit.
    let _sig ← Service.rpc (.sendSignedV0Labeled "match_crank" bundle swbLuts [payerPk])
    return true

/-- Crank one market. -/
def crankOne (market : MarketView) : Async Service Bool := do
  let banks ← Config.banksSnapshot
  let (debtBank, collateralBank) ←
    liftError (bankPair banks market.debtMint market.collateralMint)
  crankWith ctx market debtBank collateralBank

/-- One market of a scan. -/
def scanMarket (market : MarketView) : Async Service Bool := do
  if ← ChainReader.marketIsRateCrossed ctx.y market.address then do
    match ← withInflight (.matchCranker market.address) (crankOne ctx market) with
    | .ok cranked => return cranked
    | .error e => throw (.error e)
  else return false

/-- The markets left to scan. -/
def scanMarkets : List MarketView → Async Service Unit
  | [] => return ()
  | market :: markets =>
    if market.isPaused then scanMarkets markets
    else do
      let _scanned ← Service.caught (scanMarket ctx market)
      scanMarkets markets

/-- One pass over all markets. -/
def tick : Async Service Unit := do
  let markets ← ctx.chain.listMarkets ctx.y
  scanMarkets ctx markets

end MatchCrankerHandler

end YdeltaCrankers
