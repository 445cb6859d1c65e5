import YdeltaCrankers.Config.FromEnv
import YdeltaCrankers.Process.Provenance

/-!
# `src/signer.rs`, `src/main.rs`: from the environment to the loops

The process reads its settings from the environment, loads the keypairs they name, boots, and
spawns the loops they enable.

* `Signers.load` : the fee payer's keypair and the curators', or why the process does not start.
* `Settings.Spawns` : the loops that `main` spawns.
* `Startup` : a run of the process that starts from an environment and a file system.

**Main result** (`Startup.authorised`): in every such run, whatever is sent is sent by a loop that
the environment enables, under a label of that loop, and signed by a key that the environment gives
to it.
-/

namespace YdeltaCrankers

open Interaction

/-! ### Keypairs -/

/-- The files a keypair may be in. -/
structure FileSystem where
  /-- `fs::metadata(path)?.permissions().mode()`. -/
  mode : String → Except String UInt32
  /-- `fs::read`. -/
  read : String → Except String (List UInt8)

/-- `{:#o}`. -/
def octal (n : ℕ) : String := "0o" ++ String.ofList (Nat.toDigits 8 n)

section Load

variable (crates : Crates) (fs : FileSystem)

/-- A file that others may read is refused. -/
def loadKeypairFromFile (path : String) : Except Error Pubkey := do
  let permissions ← (fs.mode path).mapError fun e =>
    (Error.anyhow e).context s!"stat keypair file {path}"
  let mode := permissions &&& 0o777
  if mode &&& 0o077 ≠ 0 then
    throw (.anyhow (s!"keypair file {path} is too permissive (mode {octal mode.toNat}); " ++
      "chmod 0600 it before starting"))
  else do
    let bytes ← (fs.read path).mapError fun e =>
      (Error.anyhow e).context s!"reading keypair file {path}"
    let arr ← (crates.jsonBytes bytes).mapError fun e =>
      (Error.anyhow e).context s!"parsing keypair JSON {path}"
    (crates.keypairTryFrom arr).mapError fun e => .anyhow s!"invalid keypair at {path}: {e}"

/-- The errors leave the text out, which is a secret. -/
def loadKeypairFromBase58 (text : String) : Except Error Pubkey := do
  let bytes ← (crates.decodeBase58 (trim text)).mapError fun e =>
    .anyhow s!"invalid base58 in keypair: {e}"
  if bytes.length ≠ 64 then
    throw (.anyhow s!"base58 keypair must decode to 64 bytes, got {bytes.length}")
  else (crates.keypairTryFrom bytes).mapError fun e => .anyhow s!"invalid keypair bytes: {e}"

def loadKeypair : KeypairSource → Except Error Pubkey
  | .path path => loadKeypairFromFile crates fs path
  | .base58 secret => loadKeypairFromBase58 crates secret

/-- The curators' keypairs from number `i` on, those in `curators` being loaded already; of two
with one key one is kept. -/
def loadCurators (i : ℕ) (curators : List Pubkey) : List String → Except Error (List Pubkey)
  | [] => .ok curators
  | b58 :: rest => do
    let pk ← (loadKeypairFromBase58 crates b58).mapError
      (Error.context s!"CURATOR_KEYPAIRS_JSON[{i}]: invalid base58 keypair")
    loadCurators (i + 1) (if curators.contains pk then curators else curators ++ [pk]) rest

/-- The loaded fee payer is the one the operator expects, if any. -/
def checkFeePayer (feePayer : Pubkey) : Option Pubkey → Except Error Unit
  | none => .ok ()
  | some expected =>
    if feePayer ≠ expected then
      .error (.anyhow (s!"fee-payer pubkey mismatch: loaded keypair resolves to {feePayer}, but " ++
        s!"FEE_PAYER_PUBKEY={expected}; refusing to start — check the configured " ++
        "FEE_PAYER_KEYPAIR / FEE_PAYER_KEYPAIR_BASE58"))
    else .ok ()

/-- `Signers::load`.  The curators come in the order of the settings; `HashMap` has any order. -/
def Signers.load (s : Settings) : Except Error Signers := do
  let feePayer ← loadKeypair crates fs s.feePayerKeypair
  let () ← checkFeePayer feePayer s.feePayerExpectedPubkey
  let curators ← loadCurators crates 0 [] s.curatorKeypairsBase58
  if s.handlers.curatorFeeClaimerEnabled && curators.isEmpty then
    throw (.anyhow ("CURATOR_FEE_CLAIMER_ENABLED=true but no curator keypairs in " ++
      "CURATOR_KEYPAIRS_JSON — refusing to start"))
  else return { feePayer, curators }

end Load

/-! ### What `main` spawns -/

namespace HandlerKind

/-- The variable that enables the handler. -/
def enabledVar : HandlerKind → String
  | .promoter => "PROMOTER_ENABLED"
  | .claimer => "CLAIMER_ENABLED"
  | .liquidator => "LIQUIDATOR_ENABLED"
  | .curatorFeeClaimer => "CURATOR_FEE_CLAIMER_ENABLED"
  | .matchCranker => "MATCH_CRANKER_ENABLED"

/-- Whether the handler is enabled when the variable is not set. -/
def enabledDefault : HandlerKind → Bool
  | .curatorFeeClaimer => false
  | _ => true

end HandlerKind

/-- The flag of a handler. -/
def HandlersSettings.enabled (s : HandlersSettings) : HandlerKind → Bool
  | .promoter => s.promoterEnabled
  | .claimer => s.claimerEnabled
  | .liquidator => s.liquidatorEnabled
  | .curatorFeeClaimer => s.curatorFeeClaimerEnabled
  | .matchCranker => s.matchCrankerEnabled

section Main

variable (crates : Crates) (env : String → Option String)

/-- The queue of the Switchboard cranker; a text that is no key counts for nothing. -/
def switchboardQueue : Pubkey :=
  match (env "SWITCHBOARD_QUEUE").map crates.parsePubkey with
  | some (.ok queue) => queue
  | _ => defaultSwbQueue

/-- Whether the Switchboard warm-keeper is wanted. -/
def warmkeeperEnabled : Bool :=
  match env "SWITCHBOARD_WARMKEEPER" with
  | some v => v == "true" || v == "1"
  | none => false

/-- The loops that `main` spawns, by what they do in an iteration. -/
def Settings.Spawns (s : Settings) : Task → Prop
  | .supervise handler => s.handlers.enabled handler = true
  | .swbCrank => warmkeeperEnabled env = true
  | .solBalance | .bankRefresh => True
  | .listMarkets => False

end Main

/-- A run of the process, from an environment and a file system on. -/
structure Startup (crates : Crates) (fs : FileSystem) (env : String → Option String) (sdk : Sdk)
    (y : Ydelta) where
  settings : Settings
  /-- The keypairs, with the curators in the order of the settings. -/
  loaded : Signers
  signers : Signers
  run : ProcessRun settings.config sdk y signers
  fromEnv : Settings.fromEnv crates env = .ok settings
  load : Signers.load crates fs settings = .ok loaded
  feePayer : signers.feePayer = loaded.feePayer
  curators : signers.curators.Perm loaded.curators
  swbQueue : run.swbQueue = switchboardQueue crates env
  spawned : ∀ i, ∀ task ∈ run.loops i, settings.Spawns env task

/-! ### The keys that are loaded -/

section Keys

variable (crates : Crates) (fs : FileSystem)

/-- The file holds the keypair, and is its owner's alone. -/
structure KeyFile (path : String) (key : Pubkey) : Prop where
  private_mode : ∃ mode, fs.mode path = .ok mode ∧ mode &&& 0o077 = 0
  content : ∃ bytes arr, fs.read path = .ok bytes ∧ crates.jsonBytes bytes = .ok arr ∧
    crates.keypairTryFrom arr = .ok key

/-- The text is a keypair of 64 bytes in base 58. -/
def Base58Key (text : String) (key : Pubkey) : Prop :=
  ∃ bytes, crates.decodeBase58 (trim text) = .ok bytes ∧ bytes.length = 64 ∧
    crates.keypairTryFrom bytes = .ok key

variable {crates fs} {path text : String} {key : Pubkey}

theorem mapError_eq_ok {ε ε' α : Type} {f : ε → ε'} {x : Except ε α} {a : α} :
    x.mapError f = .ok a ↔ x = .ok a := by
  cases x <;> simp [Except.mapError]

theorem loadKeypairFromFile_ok_iff :
    loadKeypairFromFile crates fs path = .ok key ↔ KeyFile crates fs path key := by
  have hmode : ∀ mode : UInt32, mode &&& 0o777 &&& 0o077 = mode &&& 0o077 := fun mode => by
    rw [UInt32.and_assoc]
    rfl
  constructor
  · intro h
    unfold loadKeypairFromFile at h
    obtain ⟨mode, hstat, h⟩ := except_bind_eq_ok.1 h
    simp only [hmode] at h
    split at h
    · cases h
    rename_i hprivate
    obtain ⟨bytes, hread, h⟩ := except_bind_eq_ok.1 h
    obtain ⟨arr, hjson, h⟩ := except_bind_eq_ok.1 h
    exact ⟨⟨mode, mapError_eq_ok.1 hstat, not_not.1 hprivate⟩,
      bytes, arr, mapError_eq_ok.1 hread, mapError_eq_ok.1 hjson, mapError_eq_ok.1 h⟩
  · rintro ⟨⟨mode, hstat, hprivate⟩, bytes, arr, hread, hjson, hkey⟩
    unfold loadKeypairFromFile
    refine except_bind_eq_ok.2 ⟨mode, mapError_eq_ok.2 hstat, ?_⟩
    simp only [hmode]
    rw [if_neg (not_not.2 hprivate)]
    refine except_bind_eq_ok.2 ⟨bytes, mapError_eq_ok.2 hread, ?_⟩
    exact except_bind_eq_ok.2 ⟨arr, mapError_eq_ok.2 hjson, mapError_eq_ok.2 hkey⟩

theorem loadKeypairFromBase58_ok_iff :
    loadKeypairFromBase58 crates text = .ok key ↔ Base58Key crates text key := by
  constructor
  · intro h
    unfold loadKeypairFromBase58 at h
    obtain ⟨bytes, hdecode, h⟩ := except_bind_eq_ok.1 h
    split at h
    · cases h
    rename_i hlength
    exact ⟨bytes, mapError_eq_ok.1 hdecode, not_not.1 hlength, mapError_eq_ok.1 h⟩
  · rintro ⟨bytes, hdecode, hlength, hkey⟩
    unfold loadKeypairFromBase58
    refine except_bind_eq_ok.2 ⟨bytes, mapError_eq_ok.2 hdecode, ?_⟩
    rw [if_neg (not_not.2 hlength)]
    exact mapError_eq_ok.2 hkey

theorem Base58Key.unique {key' : Pubkey} (h : Base58Key crates text key)
    (h' : Base58Key crates text key') : key = key' := by
  have hload := loadKeypairFromBase58_ok_iff.2 h
  rw [loadKeypairFromBase58_ok_iff.2 h'] at hload
  cases hload
  rfl

section Curators

variable {i : ℕ} {curators loaded : List Pubkey} {texts : List String}

theorem loadCurators_cons (hkey : Base58Key crates text key) :
    loadCurators crates i curators (text :: texts) =
      loadCurators crates (i + 1) (if curators.contains key then curators else curators ++ [key])
        texts := by
  rw [loadCurators, loadKeypairFromBase58_ok_iff.2 hkey]
  rfl

theorem base58Key_of_loadCurators
    (h : loadCurators crates i curators (text :: texts) = .ok loaded) :
    ∃ key, Base58Key crates text key := by
  unfold loadCurators at h
  obtain ⟨key, hkey, -⟩ := except_bind_eq_ok.1 h
  exact ⟨key, loadKeypairFromBase58_ok_iff.1 (mapError_eq_ok.1 hkey)⟩

/-- All curators load if each of the texts is a keypair. -/
theorem exists_loadCurators (h : ∀ text ∈ texts, ∃ key, Base58Key crates text key) :
    ∃ loaded, loadCurators crates i curators texts = .ok loaded := by
  induction texts generalizing i curators with
  | nil => exact ⟨curators, rfl⟩
  | cons text texts ih =>
    obtain ⟨⟨key, hkey⟩, htexts⟩ := List.forall_mem_cons.1 h
    rw [loadCurators_cons hkey]
    exact ih htexts

/-- What the curators are when they have loaded: those that were there before, and the keys of the
texts, each of them once. -/
theorem loadCurators_ok (h : loadCurators crates i curators texts = .ok loaded)
    (hnodup : curators.Nodup) :
    loaded.Nodup ∧ (∀ text ∈ texts, ∃ key, Base58Key crates text key) ∧
      ∀ key, key ∈ loaded ↔ key ∈ curators ∨ ∃ text ∈ texts, Base58Key crates text key := by
  induction texts generalizing i curators with
  | nil =>
    cases h
    exact ⟨hnodup, List.forall_mem_nil _, fun key => by simp⟩
  | cons text texts ih =>
    obtain ⟨pk, hpk⟩ := base58Key_of_loadCurators h
    rw [loadCurators_cons hpk] at h
    have hinsert : ∀ key, (key ∈ if curators.contains pk then curators else curators ++ [pk]) ↔
        key ∈ curators ∨ key = pk := by
      intro key
      split
      · rename_i hmem
        exact ⟨.inl, fun h => h.elim id fun heq => heq ▸ List.contains_iff_mem.1 hmem⟩
      · rw [List.mem_append, List.mem_singleton]
    have hnodup' : (if curators.contains pk then curators else curators ++ [pk]).Nodup := by
      split
      · exact hnodup
      · rename_i hmem
        rw [List.contains_iff_mem] at hmem
        exact hnodup.append (List.nodup_singleton pk) (List.disjoint_singleton.2 hmem)
    obtain ⟨hloaded, htexts, hkeys⟩ := ih h hnodup'
    refine ⟨hloaded, List.forall_mem_cons.2 ⟨⟨pk, hpk⟩, htexts⟩, fun key => ?_⟩
    rw [hkeys, hinsert, or_assoc, List.exists_mem_cons_iff]
    have hhere : key = pk ↔ Base58Key crates text key :=
      ⟨fun heq => heq ▸ hpk, fun hkey => hkey.unique hpk⟩
    rw [hhere]

end Curators

/-- The keys that the settings name: the fee payer's, which is the one that the operator expects,
and the curators', each once; with the curator fee claimer on there is one at least. -/
structure Settings.Names (s : Settings) (crates : Crates) (fs : FileSystem) (signers : Signers) :
    Prop where
  feePayer : match s.feePayerKeypair with
    | .path path => KeyFile crates fs path signers.feePayer
    | .base58 secret => Base58Key crates secret signers.feePayer
  expected : ∀ expected ∈ s.feePayerExpectedPubkey, expected = signers.feePayer
  nodup : signers.curators.Nodup
  curators : ∀ key, key ∈ signers.curators ↔
    ∃ text ∈ s.curatorKeypairsBase58, Base58Key crates text key
  readable : ∀ text ∈ s.curatorKeypairsBase58, ∃ key, Base58Key crates text key
  claimer : s.handlers.curatorFeeClaimerEnabled = true → signers.curators ≠ []

theorem loadKeypair_ok_iff {source : KeypairSource} : loadKeypair crates fs source = .ok key ↔
    match source with
    | .path path => KeyFile crates fs path key
    | .base58 secret => Base58Key crates secret key := by
  cases source with
  | path path => exact loadKeypairFromFile_ok_iff
  | base58 secret => exact loadKeypairFromBase58_ok_iff

theorem checkFeePayer_ok_iff {expected : Option Pubkey} : checkFeePayer key expected = .ok () ↔
    ∀ pk ∈ expected, pk = key := by
  cases expected with
  | none => exact ⟨fun _ => nofun, fun _ => rfl⟩
  | some pk =>
    rw [checkFeePayer]
    by_cases hkey : key = pk
    · rw [if_neg (not_not.2 hkey)]
      exact ⟨fun _ _ h => by rw [hkey]; exact (Option.mem_some_iff.1 h).symm, fun _ => rfl⟩
    · rw [if_pos hkey]
      exact ⟨nofun, fun h => absurd (h pk rfl).symm hkey⟩

/-- **The process starts with the keys that the settings name**, the curators in any order, and does
not start if there are none such. -/
theorem Signers.load_iff {s : Settings} {signers : Signers} :
    (∃ loaded, Signers.load crates fs s = .ok loaded ∧ signers.feePayer = loaded.feePayer ∧
      signers.curators.Perm loaded.curators) ↔ s.Names crates fs signers := by
  constructor
  · rintro ⟨loaded, h, hpayer, hperm⟩
    unfold Signers.load at h
    obtain ⟨feePayer, hfeePayer, h⟩ := except_bind_eq_ok.1 h
    obtain ⟨⟨⟩, hexpected, h⟩ := except_bind_eq_ok.1 h
    obtain ⟨curators, hcurators, h⟩ := except_bind_eq_ok.1 h
    split at h
    · cases h
    rename_i hclaimer
    cases h
    obtain ⟨hnodup, hreadable, hkeys⟩ := loadCurators_ok hcurators List.nodup_nil
    change signers.feePayer = feePayer at hpayer
    change signers.curators.Perm curators at hperm
    subst hpayer
    refine ⟨loadKeypair_ok_iff.1 hfeePayer, checkFeePayer_ok_iff.1 hexpected,
      hperm.nodup_iff.2 hnodup, fun key => ?_, hreadable, ?_⟩
    · rw [hperm.mem_iff, hkeys]
      simp
    · intro henabled hnil
      rw [hnil] at hperm
      rw [henabled, hperm.symm.eq_nil] at hclaimer
      exact hclaimer rfl
  · intro h
    obtain ⟨loaded, hloaded⟩ : ∃ loaded,
        loadCurators crates 0 [] s.curatorKeypairsBase58 = .ok loaded :=
      exists_loadCurators h.readable
    obtain ⟨hnodup, -, hkeys⟩ := loadCurators_ok hloaded List.nodup_nil
    have hperm : signers.curators.Perm loaded := by
      refine (List.perm_ext_iff_of_nodup h.nodup hnodup).2 fun key => ?_
      rw [h.curators, hkeys]
      simp
    refine ⟨⟨signers.feePayer, loaded⟩, ?_, rfl, hperm⟩
    unfold Signers.load
    refine except_bind_eq_ok.2 ⟨signers.feePayer, loadKeypair_ok_iff.2 h.feePayer, ?_⟩
    refine except_bind_eq_ok.2 ⟨(), checkFeePayer_ok_iff.2 h.expected, ?_⟩
    refine except_bind_eq_ok.2 ⟨loaded, hloaded, ?_⟩
    rw [if_neg]
    · rfl
    · intro hrefused
      obtain ⟨henabled, hempty⟩ := Bool.and_eq_true_iff.1 hrefused
      rw [List.isEmpty_iff.1 hempty] at hperm
      exact h.claimer henabled hperm.eq_nil

end Keys

/-! ### The boot -/

section Boot

variable {cfg : Config} {sdk : Sdk} {y : Ydelta} {signers : Signers} {swbQueue : Pubkey}

/-- The call creates token accounts that one of the owners pays for, if it sends anything. -/
def ServiceCall.MayCreate (owners : List Pubkey) (c : ServiceCall) : Prop :=
  c.Sends → ∃ ixs, ∃ owner ∈ owners, c = .rpc (.sendSignedLabeled "create_atas" ixs [owner])

theorem boot_mayCreate : (boot cfg sdk y signers swbQueue).Makes
    (ServiceCall.MayCreate (signers.feePayer :: signers.curators)) := by
  have hread : ∀ c : ServiceCall, c.Reads →
      c.MayCreate (signers.feePayer :: signers.curators) := fun _ hc hsends =>
    absurd hsends hc.not_sends
  have hsend : ∀ owner ∈ signers.feePayer :: signers.curators, ∀ ixs,
      (ServiceCall.rpc (.sendSignedLabeled "create_atas" ixs [owner])).MayCreate
        (signers.feePayer :: signers.curators) := fun owner howner ixs _ =>
    ⟨ixs, owner, howner, rfl⟩
  have hdiscover : (cfg.discoverBanksFromMarkets sdk y).Makes
      (ServiceCall.MayCreate (signers.feePayer :: signers.curators)) := by
    refine ((not_sends_discoverFromMarkets _ _).mono fun c hc hsends =>
      absurd hsends hc).bind fun fresh => ?_
    refine Fallible.Makes.bind (Fallible.makes_ask nofun) fun stored => ?_
    cases stored
    · exact Fallible.makes_throw _
    · exact Fallible.makes_pure _
  rw [boot_eq]
  exact hdiscover.mapError.bind fun _ => makes_bootRest (hread _ trivial)
    (fun _ => hread _ trivial) (hread _ trivial) (fun _ => hread _ trivial) hsend

theorem new_payer {payer : Pubkey} : (SwbCranker.new swbQueue payer).Spec fun _ r =>
    ∀ cranker, r = .ok cranker → cranker.payer = payer := by
  refine Fallible.spec_ok_bind (P := fun _ => True) (fun _ _ _ _ _ => trivial) fun r _ => ?_
  cases r with
  | error e => exact Fallible.spec_throw nofun
  | ok gateways =>
    simp only
    split
    · exact Fallible.spec_throw nofun
    · refine Fallible.spec_pure ?_
      rintro cranker ⟨⟩
      rfl

theorem bootSwbCranker_payer : (bootSwbCranker signers swbQueue).Spec fun _ r =>
    ∀ swbCranker, r = .ok swbCranker →
      ∀ cranker ∈ swbCranker, cranker.payer = signers.feePayer := by
  refine Fallible.spec_ok_bind (P := fun _ => True) (fun _ _ _ _ _ => trivial) fun banks _ => ?_
  split
  · refine Fallible.spec_ok_bind (P := fun r => ∀ cranker, r = .ok cranker →
      cranker.payer = signers.feePayer) ?_ fun r hr => ?_
    · refine Fallible.spec_attempt new_payer ?_ ?_ fun _ _ _ _ _ => nofun
      · rintro _ cranker h _ ⟨⟩ _ ⟨⟩
        exact h cranker rfl
      · rintro _ _ _ _ _ _ ⟨⟩
        nofun
    · cases r with
      | ok cranker =>
        refine Fallible.spec_pure ?_
        rintro _ ⟨⟩ _ ⟨⟩
        exact hr cranker rfl
      | error e =>
        refine Fallible.spec_pure ?_
        rintro _ ⟨⟩
        nofun
  · refine Fallible.spec_pure ?_
    rintro _ ⟨⟩
    nofun

/-- The Switchboard cranker is given the fee payer's keypair. -/
theorem boot_payer : (boot cfg sdk y signers swbQueue).Spec fun _ r => ∀ ctx, r = .ok ctx →
    ∀ cranker ∈ ctx.swbCranker, cranker.payer = signers.feePayer := by
  have next : ∀ {α β : Type} {x : Async Service α} {f : α → Async Service β} {P : β → Prop},
      (∀ a, (f a).Spec fun _ r => ∀ b, r = .ok b → P b) →
        (x >>= f).Spec fun _ r => ∀ b, r = .ok b → P b := fun h =>
    Fallible.spec_ok_bind (P := fun _ => True) (fun _ _ _ _ _ => trivial) fun a _ => h a
  refine next fun _ => next fun _ => next fun _ => next fun _ => next fun _ => ?_
  refine Fallible.spec_ok_bind bootSwbCranker_payer fun swbCranker hpayer => ?_
  refine Fallible.spec_pure ?_
  rintro ctx ⟨⟩
  exact hpayer

end Boot

/-! ### What is sent -/

section Authorised

variable (crates : Crates) (fs : FileSystem) (env : String → Option String)

/-- The key that the environment gives to the fee payer. -/
structure FeePayerKey (key : Pubkey) : Prop where
  source : (∃ path, env "FEE_PAYER_KEYPAIR" = some path ∧ KeyFile crates fs path key) ∨
    ∃ secret, env "FEE_PAYER_KEYPAIR_BASE58" = some secret ∧ Base58Key crates secret key
  expected : ∀ text, env "FEE_PAYER_PUBKEY" = some text → crates.parsePubkey text = .ok key

/-- A key that the environment gives to a curator. -/
def CuratorKey (key : Pubkey) : Prop :=
  ∃ raw texts text, env "CURATOR_KEYPAIRS_JSON" = some raw ∧
    parseCuratorKeypairsJson crates raw = .ok texts ∧ text ∈ texts ∧ Base58Key crates text key

/-- A key that the handler signs with. -/
def HandlerKind.KeyIn (handler : HandlerKind) (key : Pubkey) : Prop :=
  if handler.requiresFeePayer then FeePayerKey crates fs env key else CuratorKey crates env key

/-- The environment enables the handler. -/
def HandlerKind.EnabledIn (handler : HandlerKind) : Prop :=
  boolVar handler.enabledVar handler.enabledDefault (env handler.enabledVar) = .ok true

/-- What the environment allows the loops to send: an enabled handler sends bundles that end with an
instruction of its own, and the warm-keeper sends transactions that the fee payer pays for. -/
inductive Authorised : ServiceCall → Prop
  | send {handler ixLabel ixs key} : handler.EnabledIn env →
      BundleOf handler (fun _ => True) ixLabel ixs → handler.KeyIn crates fs env key →
      Authorised (.rpc (.sendSignedLabeled ixLabel ixs [key]))
  | sendV0 {handler ixLabel ixs luts key} : handler.EnabledIn env →
      BundleOf handler (fun _ => True) ixLabel ixs → handler.KeyIn crates fs env key →
      Authorised (.rpc (.sendSignedV0Labeled ixLabel ixs luts [key]))
  | update {tx} : warmkeeperEnabled env = true → FeePayerKey crates fs env tx.message.payer →
      Authorised (.client (.sendAndConfirmTransaction tx))

variable {crates fs env} {sdk : Sdk} {y : Ydelta}

theorem HandlersSettings.enabledIn {s : HandlersSettings} (h : HandlersSettings.fromEnv env = .ok s)
    {handler : HandlerKind} (henabled : s.enabled handler = true) : handler.EnabledIn env := by
  unfold HandlersSettings.fromEnv at h
  obtain ⟨promoter, hpromoter, h⟩ := except_bind_eq_ok.1 h
  obtain ⟨claimer, hclaimer, h⟩ := except_bind_eq_ok.1 h
  obtain ⟨liquidator, hliquidator, h⟩ := except_bind_eq_ok.1 h
  obtain ⟨curator, hcurator, h⟩ := except_bind_eq_ok.1 h
  obtain ⟨matchCranker, hmatchCranker, h⟩ := except_bind_eq_ok.1 h
  obtain ⟨_, -, h⟩ := except_bind_eq_ok.1 h
  obtain ⟨_, -, h⟩ := except_bind_eq_ok.1 h
  obtain ⟨_, -, h⟩ := except_bind_eq_ok.1 h
  obtain ⟨_, -, h⟩ := except_bind_eq_ok.1 h
  obtain ⟨_, -, h⟩ := except_bind_eq_ok.1 h
  obtain ⟨_, -, h⟩ := except_bind_eq_ok.1 h
  cases h
  cases handler <;> cases henabled <;> assumption

namespace Startup

variable (start : Startup crates fs env sdk y)

theorem describes : Describes crates env start.settings :=
  Settings.describes_of_fromEnv start.fromEnv

theorem names : start.settings.Names crates fs start.signers :=
  Signers.load_iff.1 ⟨start.loaded, start.load, start.feePayer, start.curators⟩

theorem feePayerKey : FeePayerKey crates fs env start.signers.feePayer where
  source := by
    have hsource := start.describes.feePayerKeypair
    have hkey := start.names.feePayer
    unfold KeypairSource.fromEnv at hsource
    split at hsource
    · cases hsource
    · rename_i path hpath _
      rw [← Except.ok.inj hsource] at hkey
      exact .inl ⟨path, hpath, hkey⟩
    · rename_i secret _ hsecret
      rw [← Except.ok.inj hsource] at hkey
      exact .inr ⟨secret, hsecret, hkey⟩
    · cases hsource
  expected := by
    intro text htext
    have hexpected := start.describes.feePayerExpectedPubkey
    unfold expectedPubkey at hexpected
    rw [htext] at hexpected
    simp only [parsePubkey] at hexpected
    cases hparse : crates.parsePubkey text with
    | error e =>
      rw [hparse] at hexpected
      cases hexpected
    | ok pk =>
      rw [hparse] at hexpected
      exact congrArg Except.ok (start.names.expected pk (Except.ok.inj hexpected).symm)

theorem curatorKey {key : Pubkey} (h : key ∈ start.signers.curators) :
    CuratorKey crates env key := by
  obtain ⟨text, htext, hkey⟩ := (start.names.curators key).1 h
  have hcurators := start.describes.curatorKeypairsBase58
  unfold curatorKeypairs at hcurators
  split at hcurators
  · rw [← Except.ok.inj hcurators] at htext
    cases htext
  · rename_i raw hraw
    exact ⟨raw, _, text, hraw, hcurators, htext, hkey⟩

theorem keyIn {handler : HandlerKind} {key : Pubkey} (h : key ∈ handler.keys start.run.ctx) :
    handler.KeyIn crates fs env key := by
  have hctx : start.run.ctx.signers = start.signers := start.run.toLaunch.ctx_eq.2.2.2
  unfold HandlerKind.keys at h
  rw [hctx] at h
  unfold HandlerKind.KeyIn
  split at h
  · rename_i hneeds
    rw [if_pos hneeds, List.mem_singleton.1 h]
    exact start.feePayerKey
  · rename_i hneeds
    rw [if_neg hneeds]
    exact start.curatorKey h

theorem swbKey {cranker : SwbCranker} (h : start.run.ctx.swbCranker = some cranker) :
    FeePayerKey crates fs env cranker.payer := by
  have hpayer := boot_payer _ _ start.run.runs start.run.ctx rfl cranker h
  rw [hpayer]
  exact start.feePayerKey

/-- What is sent, in a run from an environment: during the boot, token accounts that a loaded key
pays for; after it, what the environment allows, where the update before a handler's instruction and
the whole of the warm-keeper's transaction are what a gateway has answered. -/
structure SendsAuthorised : Prop where
  boot : ∀ x ∈ start.run.trace, x.2.call.Sends → ∃ ixs key,
    x.2.call = .rpc (.sendSignedLabeled "create_atas" ixs [key]) ∧
      (FeePayerKey crates fs env key ∨ CuratorKey crates env key)
  loops : ∀ x ∈ start.run.events, x.2.2.call.Sends → Authorised crates fs env x.2.2.call
  updates : ∀ x ∈ start.run.events, x.2.2.call.NeedsUpdate →
    ∃ y ∈ start.run.events, Updates y.2.2 x.2.2.call

/-- A bundle of an enabled handler, signed by a key of it. -/
theorem authorised_of_conducted {handler : HandlerKind} {c : ServiceCall}
    (henabled : handler.EnabledIn env) (hconducted : c.Conducted handler fun _ => True)
    (hkeys : c.signers ⊆ handler.keys start.run.ctx) (hsends : c.Sends) :
    Authorised crates fs env c := by
  have hkey : ∀ signers : List Pubkey, signers.length = 1 →
      signers ⊆ handler.keys start.run.ctx → ∃ key, signers = [key] ∧
        handler.KeyIn crates fs env key := by
    intro signers hone hsub
    obtain ⟨key, rfl⟩ := List.length_eq_one_iff.1 hone
    exact ⟨key, rfl, start.keyIn (hsub List.mem_cons_self)⟩
  cases c with
  | process c => cases hsends
  | client c =>
    cases c with
    | sendAndConfirmTransaction tx => exact hconducted.elim
    | _ => cases hsends
  | rpc c =>
    cases c with
    | sendSignedLabeled ixLabel ixs signers =>
      obtain ⟨key, rfl, hin⟩ := hkey signers hconducted.2 hkeys
      exact .send henabled hconducted.1 hin
    | sendSignedV0Labeled ixLabel ixs luts signers =>
      obtain ⟨key, rfl, hin⟩ := hkey signers hconducted.2 hkeys
      exact .sendV0 henabled hconducted.1 hin
    | _ => cases hsends

theorem authorised_of_iteration {i : ℕ} {task : Task} {u₁ u₂ : List (Memory × Service.Event)}
    {x : Memory × Service.Event} (hiter : start.run.Iteration i task (u₁ ++ x :: u₂))
    (hmay : task.MayCall start.run.ctx (u₁.map Prod.snd) x.2.call) (hsends : x.2.call.Sends) :
    Authorised crates fs env x.2.call := by
  have hx : x ∈ u₁ ++ x :: u₂ := List.mem_append_right _ List.mem_cons_self
  have hspawns : start.settings.Spawns env task := by
    obtain ⟨done, more, _, _, hloops, -⟩ := hiter
    refine start.spawned i task ?_
    rw [hloops]
    exact List.mem_append_right _ List.mem_cons_self
  cases task with
  | solBalance | bankRefresh | listMarkets => exact absurd hsends hmay
  | swbCrank =>
    obtain ⟨⟨tx, htx⟩, -⟩ := hmay hsends
    have hkeys := hiter.signed_by (by decide) x hx
    rw [htx] at hkeys ⊢
    refine .update hspawns ?_
    have hpayer := hkeys List.mem_cons_self
    rw [Task.keys, Option.mem_toList] at hpayer
    obtain ⟨cranker, hcranker, heq⟩ := Option.map_eq_some_iff.1 hpayer
    rw [← heq]
    exact start.swbKey hcranker
  | supervise handler =>
    have henabled : handler.EnabledIn env :=
      HandlersSettings.enabledIn start.describes.handlers hspawns
    refine start.authorised_of_conducted henabled (hmay.conducted.mono fun _ _ => trivial) ?_ hsends
    exact hiter.signed_by (fun h => by cases h) x hx

/-- What an iteration sends behind its instruction, a gateway has answered in it. -/
theorem updated_of_iteration {i : ℕ} {task : Task} {u₁ u₂ : List (Memory × Service.Event)}
    {x : Memory × Service.Event} (hiter : start.run.Iteration i task (u₁ ++ x :: u₂))
    (hmay : task.MayCall start.run.ctx (u₁.map Prod.snd) x.2.call) (hneeds : x.2.call.NeedsUpdate) :
    ∃ y ∈ start.run.events, Updates y.2.2 x.2.call := by
  have hupdated : ∃ e ∈ u₁.map Prod.snd, Updates e x.2.call := by
    cases task with
    | solBalance | bankRefresh | listMarkets => exact absurd hneeds.sends hmay
    | swbCrank => exact (hmay hneeds.sends).2
    | supervise handler => exact hmay.updated hneeds
  obtain ⟨e, he, hupdates⟩ := hupdated
  obtain ⟨y, hy, rfl⟩ := List.mem_map.1 he
  exact ⟨(i, y), hiter.mem_events (List.mem_append_left _ hy), hupdates⟩

/-- **Whatever is sent is authorised by the environment**, in every run that starts from it. -/
theorem authorised : start.SendsAuthorised where
  boot := by
    intro x hx hsends
    obtain ⟨ixs, owner, howner, hcall⟩ := boot_mayCreate _ _ start.run.runs x.2
      (List.mem_map_of_mem hx) hsends
    refine ⟨ixs, owner, hcall, ?_⟩
    rcases List.mem_cons.1 howner with rfl | hcurator
    · exact .inl start.feePayerKey
    · exact .inr (start.curatorKey hcurator)
  loops := by
    rintro ⟨i, x⟩ hx hsends
    have hstep : x ∈ Env.stepsOf i start.run.events :=
      List.mem_filterMap.2 ⟨(i, x), hx, if_pos rfl⟩
    obtain ⟨task, u₁, u₂, hiter, hmay⟩ := start.run.lawful i x hstep
    exact start.authorised_of_iteration hiter hmay hsends
  updates := by
    rintro ⟨i, x⟩ hx hneeds
    have hstep : x ∈ Env.stepsOf i start.run.events :=
      List.mem_filterMap.2 ⟨(i, x), hx, if_pos rfl⟩
    obtain ⟨task, u₁, u₂, hiter, hmay⟩ := start.run.lawful i x hstep
    exact start.updated_of_iteration hiter hmay hneeds

end Startup

end Authorised

/-! ### A start -/

/-- A file system without files. -/
def sampleFiles : FileSystem := ⟨fun _ => .error "not found", fun _ => .error "not found"⟩

/-- The keys of the sample settings. -/
def startSigners : Signers := ⟨publicHalf sampleFeePayerKeypair, [publicHalf sampleCuratorKeypair]⟩

theorem load_sample : Signers.load sampleCrates sampleFiles sampleSettings = .ok startSigners := by
  have hload : (match Signers.load sampleCrates sampleFiles sampleSettings with
      | .ok loaded => loaded.feePayer == startSigners.feePayer &&
          loaded.curators == startSigners.curators
      | .error _ => false) = true := by decide +kernel
  cases hsigners : Signers.load sampleCrates sampleFiles sampleSettings with
  | error e =>
    rw [hsigners] at hload
    cases hload
  | ok loaded =>
    rw [hsigners] at hload
    obtain ⟨hpayer, hcurators⟩ := Bool.and_eq_true_iff.1 hload
    cases loaded
    exact congrArg _ (congrArg₂ Signers.mk (beq_iff_eq.1 hpayer) (beq_iff_eq.1 hcurators))

/-- The process starts from the sample settings, and the liquidator runs once. -/
def sampleStartup : Startup sampleCrates sampleFiles (sampleSettings.toEnv sampleCuratorsJson)
    .plain .plain where
  settings := sampleSettings
  loaded := startSigners
  signers := startSigners
  run := (Launch.ofBoot sampleSettings.config .plain .plain startSigners startChain
    (by decide +kernel)).continue startChain [.supervise .liquidator]
  fromEnv := Settings.fromEnv_toEnv_sample
  load := load_sample
  feePayer := rfl
  curators := .refl _
  swbQueue := by decide +kernel
  spawned := by
    intro i task htask
    change task ∈ if i = 0 then [Task.supervise .liquidator] else [] at htask
    split at htask
    · obtain rfl := List.mem_singleton.1 htask
      exact rfl
    · cases htask

/-- The loan is closed. -/
theorem Startup.authorised_sample :
    (sampleStartup.run.events.any fun x => x.2.2.call.sends) = true ∧
      sampleStartup.SendsAuthorised :=
  ⟨by decide +kernel, sampleStartup.authorised⟩

end YdeltaCrankers
