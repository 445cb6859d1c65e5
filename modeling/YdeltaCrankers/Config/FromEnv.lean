import YdeltaCrankers.Config.Env
import YdeltaCrankers.Rpc.Basic

/-!
# `src/config.rs`: `Config::from_env`

All settings of the process, and how they are read from the environment.  `Config` keeps those that
the handlers read; `Settings` has the rest too: the keypairs, the handlers that are enabled, the
intervals and the fees.  An environment is a function from names to values; a variable that is not
Unicode counts as not set.

* `Settings.fromEnv_of_describes`, `Settings.describes_of_fromEnv` : what each variable has to say.
* `Settings.fromEnv_toEnv` : all settings can be set, and are read back as they were written.
-/

namespace YdeltaCrankers

/-- What the start of the process uses of other crates. -/
structure Crates where
  /-- `Pubkey::from_str`. -/
  parsePubkey : String → Except String Pubkey
  /-- `ydelta::id()`. -/
  ydeltaId : Pubkey
  /-- `serde_json::from_str` at type `Vec<String>`. -/
  jsonStrings : String → Except String (List String)
  /-- `serde_json::from_slice` at type `Vec<u8>`. -/
  jsonBytes : List UInt8 → Except String (List UInt8)
  /-- `bs58::decode(text).into_vec()`. -/
  decodeBase58 : String → Except String (List UInt8)
  /-- `Keypair::try_from`; a keypair is modelled by its public key. -/
  keypairTryFrom : List UInt8 → Except String Pubkey

/-! ### Settings -/

/-- Where the fee payer's keypair comes from. -/
inductive KeypairSource where
  | path (path : String)
  | base58 (secret : String)
deriving DecidableEq

inductive Network where
  | localhost
  | mainnet
deriving DecidableEq

/-- The whole of `HandlersConfig`; durations are in seconds. -/
structure HandlersSettings where
  promoterEnabled : Bool
  claimerEnabled : Bool
  liquidatorEnabled : Bool
  curatorFeeClaimerEnabled : Bool
  matchCrankerEnabled : Bool
  promoterInterval : UInt64
  claimerInterval : UInt64
  liquidatorInterval : UInt64
  curatorFeeClaimerInterval : UInt64
  matchCrankerInterval : UInt64
  matchCrankerMaxFills : UInt32

/-- The whole of `Config`, without the registry of banks, which is empty at first. -/
structure Settings where
  network : Network
  rpcUrl : String
  programId : Pubkey
  marginfiProgramId : Pubkey
  marginfiGroup : Pubkey
  feePayerKeypair : KeypairSource
  feePayerExpectedPubkey : Option Pubkey
  handlers : HandlersSettings
  thresholds : ThresholdsConfig
  priorityFeeMicroLamports : UInt64
  computeUnitLimit : UInt32
  minSignerBalanceLamports : UInt64
  banksRefreshInterval : UInt64
  curatorKeypairsBase58 : List String

namespace Settings

/-- What the handlers read of the settings. -/
def config (s : Settings) : Config where
  programId := s.programId
  marginfiProgramId := s.marginfiProgramId
  marginfiGroup := s.marginfiGroup
  minSignerBalanceLamports := s.minSignerBalanceLamports
  handlers := ⟨s.handlers.matchCrankerMaxFills⟩
  thresholds := s.thresholds

/-- The sender that `main` makes, with the stop flag. -/
def rpc (s : Settings) : Rpc := ⟨s.priorityFeeMicroLamports, s.computeUnitLimit, true⟩

end Settings

/-! ### Variables -/

/-- `str::to_ascii_lowercase`. -/
def toAsciiLowercase (text : String) : String := String.ofList (text.toList.map Char.toLower)

/-- `str::trim`. -/
def trim (text : String) : String :=
  String.ofList ((text.toList.dropWhile isWhitespace).reverse.dropWhile isWhitespace).reverse

/-- `Network::as_str`. -/
def Network.asStr : Network → String
  | .localhost => "localhost"
  | .mainnet => "mainnet"

/-- `Network::from_str`. -/
def Network.fromStr (text : String) : Except Error Network :=
  match toAsciiLowercase text with
  | "localhost" | "local" => .ok .localhost
  | "mainnet" | "mainnet-beta" => .ok .mainnet
  | other => .error (.anyhow s!"NETWORK must be localhost or mainnet, got {other}")

/-- A variable that has to be set. -/
def requireVar (name : String) (var : Option String) : Except Error String :=
  match var with
  | some v => .ok v
  | none => .error (.anyhow s!"missing required env var {name}")

/-- A flag in the environment variable `name`, whose value is `var` if it is set. -/
def boolVar (name : String) (default : Bool) (var : Option String) : Except Error Bool :=
  match var with
  | some v => match toAsciiLowercase v with
    | "true" | "1" | "yes" => .ok true
    | "false" | "0" | "no" => .ok false
    | other => .error (.anyhow s!"{name}: expected bool, got {other}")
  | none => .ok default

/-- The digits of `str::parse` left, after the number `n`, at a type of numbers below `bound`. -/
def parseDigitsBelow (bound : ℕ) : List Char → ℕ → Except String ℕ
  | [], n => .ok n
  | c :: cs, n =>
    if c.isDigit then
      let n' := 10 * n + (c.toNat - '0'.toNat)
      if n' < bound then parseDigitsBelow bound cs n'
      else .error "number too large to fit in target type"
    else .error "invalid digit found in string"

/-- `str::parse` at an unsigned type: decimal digits, behind a `+` if there is one. -/
def parseUnsigned (bound : ℕ) (text : String) : Except String ℕ :=
  match text.toList with
  | [] => .error "cannot parse integer from empty string"
  | ['+'] => .error "invalid digit found in string"
  | '+' :: cs => parseDigitsBelow bound cs 0
  | cs => parseDigitsBelow bound cs 0

/-- `str::parse::<u32>`. -/
def parseU32 (text : String) : Except String UInt32 :=
  (parseUnsigned (2 ^ 32) text).map UInt32.ofNat

/-- A number in the environment variable `name`, whose value is `var` if it is set. -/
def u32Var (name : String) (default : UInt32) (var : Option String) : Except Error UInt32 :=
  match var with
  | some v => (parseU32 v).mapError fun e => .anyhow s!"{name}: {e}"
  | none => .ok default

section FromEnv

variable (crates : Crates) (env : String → Option String)

def parsePubkey (text : String) : Except Error Pubkey :=
  (crates.parsePubkey text).mapError fun e => .anyhow s!"invalid pubkey {text}: {e}"

/-- A JSON array of base-58 strings, or a single bare base-58 string. -/
def parseCuratorKeypairsJson (raw : String) : Except Error (List String) :=
  let trimmed := trim raw
  if trimmed.isEmpty then .ok []
  else if trimmed.toList.head? = some '[' then
    match crates.jsonStrings trimmed with
    | .ok arr => .ok (arr.map trim)
    | .error e => .error (.anyhow s!"CURATOR_KEYPAIRS_JSON: invalid JSON array: {e}")
  else .ok [trimmed]

/-- The source of the fee payer's keypair; two sources are refused, and so is none. -/
def KeypairSource.fromEnv : Except Error KeypairSource :=
  match env "FEE_PAYER_KEYPAIR", env "FEE_PAYER_KEYPAIR_BASE58" with
  | some _, some _ => .error (.anyhow ("both FEE_PAYER_KEYPAIR and FEE_PAYER_KEYPAIR_BASE58 are " ++
      "set; pick exactly one"))
  | some file, none => .ok (.path file)
  | none, some b58 => .ok (.base58 b58)
  | none, none => .error (.anyhow ("set either FEE_PAYER_KEYPAIR=<file path> or " ++
      "FEE_PAYER_KEYPAIR_BASE58=<base58 secret>"))

/-- The fee payer the operator expects, if the variable is set. -/
def expectedPubkey : Except Error (Option Pubkey) :=
  match env "FEE_PAYER_PUBKEY" with
  | some text => (parsePubkey crates text).map some
  | none => .ok none

def HandlersSettings.fromEnv : Except Error HandlersSettings := do
  let promoterEnabled ← boolVar "PROMOTER_ENABLED" true (env "PROMOTER_ENABLED")
  let claimerEnabled ← boolVar "CLAIMER_ENABLED" true (env "CLAIMER_ENABLED")
  let liquidatorEnabled ← boolVar "LIQUIDATOR_ENABLED" true (env "LIQUIDATOR_ENABLED")
  let curatorFeeClaimerEnabled ← boolVar "CURATOR_FEE_CLAIMER_ENABLED" false
    (env "CURATOR_FEE_CLAIMER_ENABLED")
  let matchCrankerEnabled ← boolVar "MATCH_CRANKER_ENABLED" true (env "MATCH_CRANKER_ENABLED")
  let promoterInterval ← secsVar "PROMOTER_INTERVAL_SEC" 5 (env "PROMOTER_INTERVAL_SEC")
  let claimerInterval ← secsVar "CLAIMER_INTERVAL_SEC" 30 (env "CLAIMER_INTERVAL_SEC")
  let liquidatorInterval ← secsVar "LIQUIDATOR_INTERVAL_SEC" 10 (env "LIQUIDATOR_INTERVAL_SEC")
  let curatorFeeClaimerInterval ← secsVar "CURATOR_FEE_CLAIMER_INTERVAL_SEC" 3600
    (env "CURATOR_FEE_CLAIMER_INTERVAL_SEC")
  let matchCrankerInterval ← secsVar "MATCH_CRANKER_INTERVAL_SEC" 15
    (env "MATCH_CRANKER_INTERVAL_SEC")
  let matchCrankerMaxFills ← u32Var "MATCH_CRANKER_MAX_FILLS" 8 (env "MATCH_CRANKER_MAX_FILLS")
  return {
    promoterEnabled, claimerEnabled, liquidatorEnabled, curatorFeeClaimerEnabled,
    matchCrankerEnabled, promoterInterval, claimerInterval, liquidatorInterval,
    curatorFeeClaimerInterval, matchCrankerInterval, matchCrankerMaxFills }

/-- The curators' keypairs, none if the variable is not set. -/
def curatorKeypairs : Except Error (List String) :=
  match env "CURATOR_KEYPAIRS_JSON" with
  | none => .ok []
  | some raw => parseCuratorKeypairsJson crates raw

/-- `Config::from_env`. -/
def Settings.fromEnv : Except Error Settings := do
  let network ← requireVar "NETWORK" (env "NETWORK") >>= Network.fromStr
  let rpcUrl ← requireVar "RPC_URL" (env "RPC_URL")
  let programId ← parsePubkey crates ((env "YDELTA_PROGRAM_ID").getD (toString crates.ydeltaId))
  let marginfiProgramId ←
    requireVar "MARGINFI_PROGRAM_ID" (env "MARGINFI_PROGRAM_ID") >>= parsePubkey crates
  let marginfiGroup ← requireVar "MARGINFI_GROUP" (env "MARGINFI_GROUP") >>= parsePubkey crates
  let feePayerKeypair ← KeypairSource.fromEnv env
  let feePayerExpectedPubkey ← expectedPubkey crates env
  let handlers ← HandlersSettings.fromEnv env
  let thresholds ← ThresholdsConfig.fromEnv env
  let priorityFeeMicroLamports ← u64Var "PRIORITY_FEE_MICRO_LAMPORTS" 1000
    (env "PRIORITY_FEE_MICRO_LAMPORTS")
  let computeUnitLimit ← u32Var "COMPUTE_UNIT_LIMIT" 400000 (env "COMPUTE_UNIT_LIMIT")
  let minSignerBalanceLamports ← u64Var "MIN_SIGNER_BALANCE_LAMPORTS" 50000000
    (env "MIN_SIGNER_BALANCE_LAMPORTS")
  let banksRefreshInterval ← secsVar "BANKS_REFRESH_SEC" 300 (env "BANKS_REFRESH_SEC")
  let curatorKeypairsBase58 ← curatorKeypairs crates env
  return {
    network, rpcUrl, programId, marginfiProgramId, marginfiGroup, feePayerKeypair,
    feePayerExpectedPubkey, handlers, thresholds, priorityFeeMicroLamports, computeUnitLimit,
    minSignerBalanceLamports, banksRefreshInterval, curatorKeypairsBase58 }

end FromEnv

/-! ### What the variables have to say -/

/-- What the variables of an environment have to say about the settings. -/
structure Describes (crates : Crates) (env : String → Option String) (s : Settings) : Prop where
  network : (requireVar "NETWORK" (env "NETWORK") >>= Network.fromStr) = .ok s.network
  rpcUrl : requireVar "RPC_URL" (env "RPC_URL") = .ok s.rpcUrl
  programId : parsePubkey crates ((env "YDELTA_PROGRAM_ID").getD (toString crates.ydeltaId)) =
    .ok s.programId
  marginfiProgramId : (requireVar "MARGINFI_PROGRAM_ID" (env "MARGINFI_PROGRAM_ID") >>=
    parsePubkey crates) = .ok s.marginfiProgramId
  marginfiGroup : (requireVar "MARGINFI_GROUP" (env "MARGINFI_GROUP") >>= parsePubkey crates) =
    .ok s.marginfiGroup
  feePayerKeypair : KeypairSource.fromEnv env = .ok s.feePayerKeypair
  feePayerExpectedPubkey : expectedPubkey crates env = .ok s.feePayerExpectedPubkey
  handlers : HandlersSettings.fromEnv env = .ok s.handlers
  thresholds : ThresholdsConfig.fromEnv env = .ok s.thresholds
  priorityFeeMicroLamports : u64Var "PRIORITY_FEE_MICRO_LAMPORTS" 1000
    (env "PRIORITY_FEE_MICRO_LAMPORTS") = .ok s.priorityFeeMicroLamports
  computeUnitLimit : u32Var "COMPUTE_UNIT_LIMIT" 400000 (env "COMPUTE_UNIT_LIMIT") =
    .ok s.computeUnitLimit
  minSignerBalanceLamports : u64Var "MIN_SIGNER_BALANCE_LAMPORTS" 50000000
    (env "MIN_SIGNER_BALANCE_LAMPORTS") = .ok s.minSignerBalanceLamports
  banksRefreshInterval : secsVar "BANKS_REFRESH_SEC" 300 (env "BANKS_REFRESH_SEC") =
    .ok s.banksRefreshInterval
  curatorKeypairsBase58 : curatorKeypairs crates env = .ok s.curatorKeypairsBase58

section Describes

variable {crates : Crates} {env : String → Option String} {s : Settings}

theorem Settings.fromEnv_of_describes (h : Describes crates env s) :
    Settings.fromEnv crates env = .ok s := by
  unfold Settings.fromEnv
  rw [h.network, h.rpcUrl, h.programId, h.marginfiProgramId, h.marginfiGroup, h.feePayerKeypair,
    h.feePayerExpectedPubkey, h.handlers, h.thresholds, h.priorityFeeMicroLamports,
    h.computeUnitLimit, h.minSignerBalanceLamports, h.banksRefreshInterval,
    h.curatorKeypairsBase58]
  rfl

theorem Settings.describes_of_fromEnv (h : Settings.fromEnv crates env = .ok s) :
    Describes crates env s := by
  unfold Settings.fromEnv at h
  obtain ⟨network, hnetwork, h⟩ := except_bind_eq_ok.1 h
  obtain ⟨rpcUrl, hrpcUrl, h⟩ := except_bind_eq_ok.1 h
  obtain ⟨programId, hprogramId, h⟩ := except_bind_eq_ok.1 h
  obtain ⟨marginfiProgramId, hmarginfiProgramId, h⟩ := except_bind_eq_ok.1 h
  obtain ⟨marginfiGroup, hmarginfiGroup, h⟩ := except_bind_eq_ok.1 h
  obtain ⟨feePayerKeypair, hfeePayerKeypair, h⟩ := except_bind_eq_ok.1 h
  obtain ⟨feePayerExpectedPubkey, hexpected, h⟩ := except_bind_eq_ok.1 h
  obtain ⟨handlers, hhandlers, h⟩ := except_bind_eq_ok.1 h
  obtain ⟨thresholds, hthresholds, h⟩ := except_bind_eq_ok.1 h
  obtain ⟨priorityFeeMicroLamports, hpriorityFee, h⟩ := except_bind_eq_ok.1 h
  obtain ⟨computeUnitLimit, hcomputeUnitLimit, h⟩ := except_bind_eq_ok.1 h
  obtain ⟨minSignerBalanceLamports, hminSignerBalance, h⟩ := except_bind_eq_ok.1 h
  obtain ⟨banksRefreshInterval, hbanksRefresh, h⟩ := except_bind_eq_ok.1 h
  obtain ⟨curatorKeypairsBase58, hcurators, h⟩ := except_bind_eq_ok.1 h
  cases h
  exact ⟨hnetwork, hrpcUrl, hprogramId, hmarginfiProgramId, hmarginfiGroup, hfeePayerKeypair,
    hexpected, hhandlers, hthresholds, hpriorityFee, hcomputeUnitLimit, hminSignerBalance,
    hbanksRefresh, hcurators⟩

end Describes

/-! ### All settings can be set -/

theorem parseDigitsBelow_eq {bound : ℕ} {cs : List Char} {n : ℕ}
    (hdigits : ∀ c ∈ cs, c.isDigit = true) (hlt : Nat.ofDigitChars 10 cs n < bound) :
    parseDigitsBelow bound cs n = .ok (Nat.ofDigitChars 10 cs n) := by
  induction cs generalizing n with
  | nil => rfl
  | cons c cs ih =>
    obtain ⟨hc, hcs⟩ := List.forall_mem_cons.1 hdigits
    rw [Nat.ofDigitChars_cons] at hlt ⊢
    have hnext := (le_ofDigitChars cs _).trans_lt hlt
    rw [parseDigitsBelow, if_pos hc]
    simp only [hnext, if_true]
    exact ih hcs hlt

/-- A number that fits is read back. -/
theorem parseUnsigned_toString {bound n : ℕ} (h : n < bound) :
    parseUnsigned bound (toString n) = .ok n := by
  have hdigits : ∀ c ∈ Nat.toDigits 10 n, c.isDigit = true := fun c =>
    Nat.isDigit_of_mem_toDigits (by decide) (by decide)
  have hparse : parseDigitsBelow bound (Nat.toDigits 10 n) 0 = .ok n := by
    rw [parseDigitsBelow_eq hdigits (by rwa [Nat.ofDigitChars_ten_toDigits]),
      Nat.ofDigitChars_ten_toDigits]
  have hlist : (toString n).toList = Nat.toDigits 10 n := Nat.toList_repr
  unfold parseUnsigned
  rw [hlist]
  cases hcs : Nat.toDigits 10 n with
  | nil => exact absurd hcs Nat.toDigits_ne_nil
  | cons c cs =>
    rw [hcs] at hdigits hparse
    have hplus : c ≠ '+' := by
      rintro rfl
      exact absurd (hdigits _ List.mem_cons_self) (by decide)
    split
    · rename_i heq
      cases heq
    · rename_i heq
      cases heq
      exact absurd rfl hplus
    · rename_i heq
      cases heq
      exact absurd rfl hplus
    · exact hparse

theorem u32Var_admits (name : String) (default n : UInt32) :
    u32Var name default (some (toString n.toNat)) = .ok n := by
  rw [u32Var, parseU32, parseUnsigned_toString n.toNat_lt, Except.map, UInt32.ofNat_toNat,
    Except.mapError]

/-- How a flag is written. -/
def boolText (b : Bool) : String := if b then "true" else "false"

theorem boolVar_admits (name : String) (default b : Bool) :
    boolVar name default (some (boolText b)) = .ok b := by
  cases b <;> rfl

theorem Network.fromStr_asStr (network : Network) : fromStr network.asStr = .ok network := by
  cases network <;> rfl

namespace Settings

variable (s : Settings) (curatorsJson : String)

/-- The environment that sets the settings, with a JSON text for the curators. -/
def toEnv : String → Option String
  | "NETWORK" => some s.network.asStr
  | "RPC_URL" => some s.rpcUrl
  | "YDELTA_PROGRAM_ID" => some (toString s.programId)
  | "MARGINFI_PROGRAM_ID" => some (toString s.marginfiProgramId)
  | "MARGINFI_GROUP" => some (toString s.marginfiGroup)
  | "FEE_PAYER_KEYPAIR" => match s.feePayerKeypair with
    | .path file => some file
    | .base58 _ => none
  | "FEE_PAYER_KEYPAIR_BASE58" => match s.feePayerKeypair with
    | .path _ => none
    | .base58 secret => some secret
  | "FEE_PAYER_PUBKEY" => s.feePayerExpectedPubkey.map toString
  | "PROMOTER_ENABLED" => some (boolText s.handlers.promoterEnabled)
  | "CLAIMER_ENABLED" => some (boolText s.handlers.claimerEnabled)
  | "LIQUIDATOR_ENABLED" => some (boolText s.handlers.liquidatorEnabled)
  | "CURATOR_FEE_CLAIMER_ENABLED" => some (boolText s.handlers.curatorFeeClaimerEnabled)
  | "MATCH_CRANKER_ENABLED" => some (boolText s.handlers.matchCrankerEnabled)
  | "PROMOTER_INTERVAL_SEC" => some (toString s.handlers.promoterInterval.toNat)
  | "CLAIMER_INTERVAL_SEC" => some (toString s.handlers.claimerInterval.toNat)
  | "LIQUIDATOR_INTERVAL_SEC" => some (toString s.handlers.liquidatorInterval.toNat)
  | "CURATOR_FEE_CLAIMER_INTERVAL_SEC" =>
    some (toString s.handlers.curatorFeeClaimerInterval.toNat)
  | "MATCH_CRANKER_INTERVAL_SEC" => some (toString s.handlers.matchCrankerInterval.toNat)
  | "MATCH_CRANKER_MAX_FILLS" => some (toString s.handlers.matchCrankerMaxFills.toNat)
  | "MIN_LIQUIDATION_PROFIT_ATOMS" =>
    some (toString s.thresholds.minLiquidationProfitAtoms.toNat)
  | "MATURITY_EXTRA_BUFFER_SEC" => some (toString s.thresholds.maturityExtraBuffer.toNat)
  | "MIN_CURATOR_FEE_CLAIM_ATOMS" => some (toString s.thresholds.minCuratorFeeClaimAtoms.toNat)
  | "PRIORITY_FEE_MICRO_LAMPORTS" => some (toString s.priorityFeeMicroLamports.toNat)
  | "COMPUTE_UNIT_LIMIT" => some (toString s.computeUnitLimit.toNat)
  | "MIN_SIGNER_BALANCE_LAMPORTS" => some (toString s.minSignerBalanceLamports.toNat)
  | "BANKS_REFRESH_SEC" => some (toString s.banksRefreshInterval.toNat)
  | "CURATOR_KEYPAIRS_JSON" => some curatorsJson
  | _ => none

/-- The variables that `Config::from_env` reads. -/
def vars : List String :=
  ["NETWORK", "RPC_URL", "YDELTA_PROGRAM_ID", "MARGINFI_PROGRAM_ID", "MARGINFI_GROUP",
    "FEE_PAYER_KEYPAIR", "FEE_PAYER_KEYPAIR_BASE58", "FEE_PAYER_PUBKEY", "PROMOTER_ENABLED",
    "CLAIMER_ENABLED", "LIQUIDATOR_ENABLED", "CURATOR_FEE_CLAIMER_ENABLED",
    "MATCH_CRANKER_ENABLED", "PROMOTER_INTERVAL_SEC", "CLAIMER_INTERVAL_SEC",
    "LIQUIDATOR_INTERVAL_SEC", "CURATOR_FEE_CLAIMER_INTERVAL_SEC", "MATCH_CRANKER_INTERVAL_SEC",
    "MATCH_CRANKER_MAX_FILLS", "MIN_LIQUIDATION_PROFIT_ATOMS", "MATURITY_EXTRA_BUFFER_SEC",
    "MIN_CURATOR_FEE_CLAIM_ATOMS", "PRIORITY_FEE_MICRO_LAMPORTS", "COMPUTE_UNIT_LIMIT",
    "MIN_SIGNER_BALANCE_LAMPORTS", "BANKS_REFRESH_SEC", "CURATOR_KEYPAIRS_JSON"]

/-- The keys among the settings. -/
def pubkeys : List Pubkey :=
  [s.programId, s.marginfiProgramId, s.marginfiGroup] ++ s.feePayerExpectedPubkey.toList

/-- The other crates read the keys and the curators of the settings back from their texts. -/
structure Readable (crates : Crates) : Prop where
  pubkeys : ∀ pk ∈ s.pubkeys, crates.parsePubkey (toString pk) = .ok pk
  curators : crates.jsonStrings curatorsJson = .ok s.curatorKeypairsBase58
  trimmed : ∀ secret ∈ s.curatorKeypairsBase58, trim secret = secret
  trim_json : trim curatorsJson = curatorsJson
  bracket : curatorsJson.toList.head? = some '['

section Readable

variable {s curatorsJson} {crates : Crates} {env : String → Option String}

theorem parsePubkey_of_mem (h : s.Readable curatorsJson crates) {pk : Pubkey}
    (hpk : pk ∈ s.pubkeys) : parsePubkey crates (toString pk) = .ok pk := by
  rw [parsePubkey, h.pubkeys pk hpk, Except.mapError]

theorem parseCuratorKeypairsJson_eq (h : s.Readable curatorsJson crates) :
    parseCuratorKeypairsJson crates curatorsJson = .ok s.curatorKeypairsBase58 := by
  have hempty : curatorsJson.isEmpty = false := by
    refine Bool.eq_false_iff.2 fun hempty => ?_
    have hbracket := h.bracket
    rw [String.isEmpty_iff.1 hempty] at hbracket
    cases hbracket
  have htrim : s.curatorKeypairsBase58.map trim = s.curatorKeypairsBase58 :=
    List.map_congr_left h.trimmed |>.trans (List.map_id _)
  unfold parseCuratorKeypairsJson
  rw [h.trim_json]
  simp only [hempty, h.bracket, h.curators, htrim, if_true, Bool.false_eq_true, if_false]

theorem boolVar_of_eq {name : String} {default b : Bool} (h : env name = some (boolText b)) :
    boolVar name default (env name) = .ok b := by
  rw [h, boolVar_admits]

theorem secsVar_of_eq {name : String} {default n : UInt64}
    (h : env name = some (toString n.toNat)) : secsVar name default (env name) = .ok n := by
  rw [h, secsVar, u64Var_admits]

theorem u64Var_of_eq {name : String} {default n : UInt64}
    (h : env name = some (toString n.toNat)) : u64Var name default (env name) = .ok n :=
  secsVar_of_eq h

theorem u32Var_of_eq {name : String} {default n : UInt32}
    (h : env name = some (toString n.toNat)) : u32Var name default (env name) = .ok n := by
  rw [h, u32Var_admits]

theorem handlers_toEnv (henv : ∀ name ∈ vars, env name = s.toEnv curatorsJson name) :
    HandlersSettings.fromEnv env = .ok s.handlers := by
  unfold HandlersSettings.fromEnv
  rw [boolVar_of_eq (henv "PROMOTER_ENABLED" (by decide)),
    boolVar_of_eq (henv "CLAIMER_ENABLED" (by decide)),
    boolVar_of_eq (henv "LIQUIDATOR_ENABLED" (by decide)),
    boolVar_of_eq (henv "CURATOR_FEE_CLAIMER_ENABLED" (by decide)),
    boolVar_of_eq (henv "MATCH_CRANKER_ENABLED" (by decide)),
    secsVar_of_eq (henv "PROMOTER_INTERVAL_SEC" (by decide)),
    secsVar_of_eq (henv "CLAIMER_INTERVAL_SEC" (by decide)),
    secsVar_of_eq (henv "LIQUIDATOR_INTERVAL_SEC" (by decide)),
    secsVar_of_eq (henv "CURATOR_FEE_CLAIMER_INTERVAL_SEC" (by decide)),
    secsVar_of_eq (henv "MATCH_CRANKER_INTERVAL_SEC" (by decide)),
    u32Var_of_eq (henv "MATCH_CRANKER_MAX_FILLS" (by decide))]
  rfl

theorem thresholds_toEnv (henv : ∀ name ∈ vars, env name = s.toEnv curatorsJson name) :
    ThresholdsConfig.fromEnv env = .ok s.thresholds := by
  unfold ThresholdsConfig.fromEnv
  rw [u64Var_of_eq (henv "MIN_LIQUIDATION_PROFIT_ATOMS" (by decide)),
    secsVar_of_eq (henv "MATURITY_EXTRA_BUFFER_SEC" (by decide)),
    u64Var_of_eq (henv "MIN_CURATOR_FEE_CLAIM_ATOMS" (by decide))]
  rfl

theorem describes_toEnv (h : s.Readable curatorsJson crates)
    (henv : ∀ name ∈ vars, env name = s.toEnv curatorsJson name) : Describes crates env s where
  network := by
    rw [henv "NETWORK" (by decide)]
    exact s.network.fromStr_asStr
  rpcUrl := by
    rw [henv "RPC_URL" (by decide)]
    rfl
  programId := by
    rw [henv "YDELTA_PROGRAM_ID" (by decide)]
    exact parsePubkey_of_mem h List.mem_cons_self
  marginfiProgramId := by
    rw [henv "MARGINFI_PROGRAM_ID" (by decide)]
    exact parsePubkey_of_mem h (List.mem_cons_of_mem _ List.mem_cons_self)
  marginfiGroup := by
    rw [henv "MARGINFI_GROUP" (by decide)]
    exact parsePubkey_of_mem h
      (List.mem_cons_of_mem _ (List.mem_cons_of_mem _ List.mem_cons_self))
  feePayerKeypair := by
    have hfile : env "FEE_PAYER_KEYPAIR" = match s.feePayerKeypair with
      | .path file => some file
      | .base58 _ => none := henv "FEE_PAYER_KEYPAIR" (by decide)
    have hsecret : env "FEE_PAYER_KEYPAIR_BASE58" = match s.feePayerKeypair with
      | .path _ => none
      | .base58 secret => some secret := henv "FEE_PAYER_KEYPAIR_BASE58" (by decide)
    unfold KeypairSource.fromEnv
    rw [hfile, hsecret]
    cases s.feePayerKeypair <;> rfl
  feePayerExpectedPubkey := by
    have hpubkey : env "FEE_PAYER_PUBKEY" = s.feePayerExpectedPubkey.map toString :=
      henv "FEE_PAYER_PUBKEY" (by decide)
    unfold expectedPubkey
    rw [hpubkey]
    cases hexpected : s.feePayerExpectedPubkey with
    | none => rfl
    | some pk =>
      have hmem : pk ∈ s.pubkeys :=
        List.mem_append_right _ (by rw [hexpected]; exact List.mem_cons_self)
      simp only [Option.map_some, parsePubkey_of_mem h hmem]
      rfl
  handlers := handlers_toEnv henv
  thresholds := thresholds_toEnv henv
  priorityFeeMicroLamports := u64Var_of_eq (henv "PRIORITY_FEE_MICRO_LAMPORTS" (by decide))
  computeUnitLimit := u32Var_of_eq (henv "COMPUTE_UNIT_LIMIT" (by decide))
  minSignerBalanceLamports := u64Var_of_eq (henv "MIN_SIGNER_BALANCE_LAMPORTS" (by decide))
  banksRefreshInterval := secsVar_of_eq (henv "BANKS_REFRESH_SEC" (by decide))
  curatorKeypairsBase58 := by
    unfold curatorKeypairs
    rw [henv "CURATOR_KEYPAIRS_JSON" (by decide)]
    exact parseCuratorKeypairsJson_eq h

/-- **All settings can be set**, and are read back as they were written, whatever else the
environment holds. -/
theorem fromEnv_toEnv (h : s.Readable curatorsJson crates)
    (henv : ∀ name ∈ vars, env name = s.toEnv curatorsJson name) :
    fromEnv crates env = .ok s :=
  fromEnv_of_describes (describes_toEnv h henv)

end Readable

end Settings

/-! ### Settings that are read back -/

/-- The fee payer's keypair, its secret half first. -/
def sampleFeePayerKeypair : Bytes 64 where
  toList := [157, 97, 177, 157, 239, 253, 90, 96, 186, 132, 74, 244, 146, 236, 44, 196, 68, 73, 197,
    105, 123, 50, 105, 25, 112, 59, 172, 3, 28, 174, 127, 96, 215, 90, 152, 1, 130, 177, 10, 183,
    213, 75, 254, 211, 201, 100, 7, 58, 14, 225, 114, 243, 218, 166, 35, 37, 175, 2, 26, 104, 247,
    7, 81, 26]
  length_eq := rfl

/-- A curator's keypair. -/
def sampleCuratorKeypair : Bytes 64 where
  toList := [76, 205, 8, 155, 40, 255, 150, 218, 157, 182, 195, 70, 236, 17, 78, 15, 91, 138, 49,
    159, 53, 171, 166, 36, 218, 140, 246, 237, 79, 184, 166, 251, 61, 64, 23, 195, 232, 67, 137, 90,
    146, 183, 10, 167, 77, 27, 126, 188, 156, 152, 44, 207, 46, 196, 150, 140, 192, 205, 85, 241,
    42, 244, 102, 12]
  length_eq := rfl

/-- The public half of a keypair. -/
def publicHalf (keypair : Bytes 64) : Pubkey :=
  ⟨keypair.toList.drop 32, by simp [keypair.length_eq]⟩

/-- The curators as a JSON array. -/
def sampleCuratorsJson : String := "[\"" ++ toString sampleCuratorKeypair ++ "\"]"

/-- The other crates, on what the sample settings have them read. -/
def sampleCrates : Crates where
  parsePubkey text :=
    let known : List Pubkey :=
      [.fill 32 7, .fill 32 8, .fill 32 9, publicHalf sampleFeePayerKeypair]
    match known.find? fun pk => toString pk == text with
    | some pk => .ok pk
    | none => .error "Invalid Base58 string"
  ydeltaId := .fill 32 9
  jsonStrings text :=
    if text = sampleCuratorsJson then .ok [toString sampleCuratorKeypair]
    else .error "expected value at line 1 column 1"
  jsonBytes _ := .error "expected value at line 1 column 1"
  decodeBase58 text :=
    match [sampleFeePayerKeypair, sampleCuratorKeypair].find? fun kp => toString kp == text with
    | some keypair => .ok keypair.toList
    | none => .error "provided string contained invalid character"
  keypairTryFrom bytes :=
    match [sampleFeePayerKeypair, sampleCuratorKeypair].find? fun kp => kp.toList == bytes with
    | some keypair => .ok (publicHalf keypair)
    | none => .error "signature error"

/-- All handlers are on. -/
def sampleSettings : Settings where
  network := .mainnet
  rpcUrl := "rpc"
  programId := .fill 32 9
  marginfiProgramId := .fill 32 7
  marginfiGroup := .fill 32 8
  feePayerKeypair := .base58 (toString sampleFeePayerKeypair)
  feePayerExpectedPubkey := some (publicHalf sampleFeePayerKeypair)
  handlers := ⟨true, true, true, true, true, 5, 30, 10, 3600, 15, 8⟩
  thresholds := ⟨0, 0, 0⟩
  priorityFeeMicroLamports := 1000
  computeUnitLimit := 400000
  minSignerBalanceLamports := 0
  banksRefreshInterval := 300
  curatorKeypairsBase58 := [toString sampleCuratorKeypair]

theorem readable_sample : sampleSettings.Readable sampleCuratorsJson sampleCrates where
  pubkeys := by
    have hkeys : sampleSettings.pubkeys.all (fun pk =>
        (sampleCrates.parsePubkey (toString pk)).toOption == some pk) = true := by decide +kernel
    intro pk hpk
    have hpk' := List.all_eq_true.1 hkeys pk hpk
    cases hparse : sampleCrates.parsePubkey (toString pk) with
    | error e =>
      rw [hparse] at hpk'
      cases hpk'
    | ok pk' =>
      rw [hparse] at hpk'
      exact congrArg _ (Option.some.inj (beq_iff_eq.1 hpk'))
  curators := by
    simp only [sampleCrates, sampleSettings, if_true]
  trimmed := by
    have htrimmed : [toString sampleCuratorKeypair].all (fun secret => trim secret == secret) =
        true := by decide +kernel
    intro secret hsecret
    exact beq_iff_eq.1 (List.all_eq_true.1 htrimmed secret hsecret)
  trim_json := by decide +kernel
  bracket := by decide +kernel

theorem Settings.fromEnv_toEnv_sample :
    Settings.fromEnv sampleCrates (sampleSettings.toEnv sampleCuratorsJson) = .ok sampleSettings :=
  Settings.fromEnv_toEnv readable_sample fun _ _ => rfl

end YdeltaCrankers
