import YdeltaCrankers.Rpc.Loop

/-!
# What the retry loops land

The two retry loops in the network of `YdeltaCrankers.Rpc.Network`.  Neither of the two
promises a caller would like to rely on holds without a condition on the network:

* *at most one of the signed transactions lands* holds as long as a status query that is
  followed by another broadcast finds everything broadcast before dropped;
* *success means executed* holds exactly when no status query shows a landed failure.
-/

namespace YdeltaCrankers

open Interaction

namespace Chain

/-- Unless everything broadcast so far is dropped, a status query shows a status. -/
def Conclusive (s : Chain) : Client.Event → Prop
  | ⟨.getSignatureStatuses _, r⟩ => shown r = none → s.AllDropped
  | _ => True

/-- Every other transaction broadcast so far is dropped when `tx` is broadcast. -/
def ResendSafe (s : Chain) (tx : Transaction) : Prop :=
  ∀ sig, tx.signatures.head? = some sig → ∀ sig' ∈ s.sent, sig' ≠ sig → s.state sig' = .dropped

theorem conclusive_of_isBroadcast {s : Chain} {e : Client.Event} (he : IsBroadcast e) :
    Conclusive s e := by
  obtain ⟨c, r⟩ := e
  cases c
  case sendAndConfirmTransaction tx => trivial
  all_goals exact he.elim

theorem broadcastIs_of_not_isBroadcast {G : Chain → Transaction → Prop} {s : Chain}
    {e : Client.Event} (he : ¬ IsBroadcast e) : BroadcastIs G s e.call := by
  obtain ⟨c, r⟩ := e
  cases c
  case sendAndConfirmTransaction tx => exact absurd trivial he
  all_goals trivial

/-- An attempt begins with at most one transaction alive, and signs when none is. -/
theorem landingRule : LoopRule Conclusive ResendSafe AtMostOneAlive
    (fun last s => s.AtMostOneAlive ∧ (last = none → s.AllDropped)) AllDropped
    (fun _ _ => True) where
  head_sound h := h.1
  head_after h hs := ⟨h.1.after hs, fun hl => (h.2 hl).after hs⟩
  sign_sound h := h.atMostOneAlive
  sign_after h hs := h.after hs
  error _ _ := trivial
  first h := h.2 rfl
  silent _ hA hr := hA hr
  status h _ _ _ s' hs := ⟨h.1.after hs, trivial⟩
  broadcast h _ := fun _ _ sig' hmem _ => h sig' hmem
  confirmed {s tx sig sig' s'} h hsig ha := by
    simp only [network, Answer, hsig] at ha
    obtain ⟨-, rfl, hstate⟩ := ha
    have hone : (s.broadcast sig).AtMostOneAlive :=
      broadcast_atMostOneAlive fun sig' hmem _ => h sig' hmem
    have hsig' : (s.broadcast sig).state sig ≠ .dropped := by
      rcases hstate with hstate | hstate <;> simp [hstate]
    exact fun s'' h'' => ⟨(set_atMostOneAlive hone hsig').after h'', trivial⟩
  lost h := ⟨broadcast_atMostOneAlive fun sig' hmem _ => h sig' hmem, nofun⟩

/-! ### Whole runs -/

/-- **At most one lands while nothing is signed in the dark.**  In every run of a retry loop,
finished or not, in which each status query followed by another broadcast is conclusive, a
transaction is broadcast only when all those broadcast before are dropped, and at most one of
them lands. -/
theorem atMostOneLanded_of_conclusive (rpc : Rpc) (sdk : Sdk) (call : RetryCall)
    {T : List (Chain × Client.Event)} {s' : Chain} {p' : Prog Client (Except Failure Signature)}
    (hT : network.Timeline start T s')
    (hr : (call.prog rpc sdk).run.Reaches (T.map Prod.snd) p')
    (h : ∀ T₁ x T₂, T = T₁ ++ x :: T₂ → (∃ y ∈ T₂, IsBroadcast y.2) → Conclusive x.1 x.2) :
    (∀ x ∈ T, BroadcastIs ResendSafe x.1 x.2.call) ∧ s'.AtMostOneLanded := by
  by_cases hb : ∃ x ∈ T, IsBroadcast x.2
  · -- nothing is broadcast after the last broadcast, and everything before it is conclusive
    obtain ⟨T₁, x, T₂, rfl, hx, hT₂⟩ := Env.exists_last hb
    have hsplit : T₁ ++ x :: T₂ = (T₁ ++ [x]) ++ T₂ := by simp
    rw [hsplit] at hT hr
    obtain ⟨s₁, hT₁, hT'⟩ := Env.timeline_append.1 hT
    rw [List.map_append] at hr
    obtain ⟨p₁, hr₁⟩ := hr.prefix
    have hA : ∀ y ∈ T₁ ++ [x], Conclusive y.1 y.2 := by
      intro y hy
      rcases List.mem_append.1 hy with hy | hy
      · obtain ⟨U₁, U₂, rfl⟩ := List.append_of_mem hy
        exact h U₁ y (U₂ ++ x :: T₂) (by simp) ⟨x, by simp, hx⟩
      · obtain rfl := List.mem_singleton.1 hy
        exact conclusive_of_isBroadcast hx
    have hkeeps := landingRule.prog rpc sdk call
      ⟨start_allDropped.atMostOneAlive, fun _ => start_allDropped⟩
    obtain ⟨hone, hsafe, -⟩ := hkeeps.sound hT₁ hr₁ hA
    refine ⟨fun y hy => ?_, (hone.after (after_of_timeline hT' hT₂)).atMostOneLanded⟩
    rw [hsplit] at hy
    rcases List.mem_append.1 hy with hy | hy
    · exact (hsafe y hy).2
    · exact broadcastIs_of_not_isBroadcast (hT₂ y hy)
  · have hb : ∀ x ∈ T, ¬ IsBroadcast x.2 := fun x hx hxb => hb ⟨x, hx, hxb⟩
    have hafter := after_of_timeline hT hb
    exact ⟨fun x hx => broadcastIs_of_not_isBroadcast (hb x hx),
      (start_allDropped.after hafter).atMostOneAlive.atMostOneLanded⟩

/-- A run that meets the condition: the first transaction is dropped before the second one is
signed. -/
theorem atMostOneLanded_after_drop : ∃ (T : List (Chain × Client.Event)) (s' : Chain),
    network.Timeline start T s' ∧ s'.sent.length = 2 ∧
      (∀ x ∈ T, BroadcastIs ResendSafe x.1 x.2.call) ∧ s'.AtMostOneLanded := by
  let call : RetryCall := .legacy [] [.zero 32] (.zero 32)
  let tx (h : Hash) : Transaction := ⟨[plainSignature h], ⟨.legacy, .zero 32, [], [], h⟩⟩
  let h₀ : Hash := .zero 32
  let h₁ : Hash := .fill 32 1
  let lost : ClientError := ⟨.io "connection reset", "connection reset"⟩
  let s₁ := start.broadcast (plainSignature h₀)
  let s₂ := s₁.set (plainSignature h₀) .dropped
  let s₃ := (s₂.broadcast (plainSignature h₁)).set (plainSignature h₁) (.landed none)
  let T : List (Chain × Client.Event) := [(start, ⟨.getLatestBlockhash, .ok h₀⟩),
    (start, ⟨.sendAndConfirmTransaction (tx h₀), .error lost⟩), (s₁, ⟨.sleep 500, ()⟩),
    (s₂, ⟨.getSignatureStatuses [plainSignature h₀], .ok [none]⟩),
    (s₂, ⟨.getLatestBlockhash, .ok h₁⟩),
    (s₂, ⟨.sendAndConfirmTransaction (tx h₁), .ok (plainSignature h₁)⟩)]
  -- the first transaction is dropped during the sleep
  have hdrop : network.Ticks s₁ s₂ :=
    .single (.settle (mem_broadcast _ _) (by simp [s₁, start, broadcast])
      TxState.dropped_ne_pending)
  have hT : network.Timeline start T s₃ := by
    refine ⟨.refl, start, rfl, .refl, s₁, rfl, .refl, s₁, rfl, hdrop, s₂, ⟨rfl, ?_⟩, .refl, s₂,
      rfl, .refl, s₃, ⟨rfl, rfl, .inl (by decide)⟩, .refl⟩
    rintro _ ⟨⟩
    refine .cons ?_ .nil
    rintro _ ⟨⟩
  have hr : (call.prog ⟨0, 200000, false⟩ .plain).run.Reaches (T.map Prod.snd)
      (.ret (.ok (plainSignature h₁))) := by
    rw [RetryCall.prog_eq]
    exact Rpc.retryLoop_reaches_lost rfl rfl rfl rfl (by decide)
      (Rpc.retryLoop_reaches_resent rfl rfl rfl)
  have hA : ∀ x ∈ T, Conclusive x.1 x.2 := by
    have hs₂ : s₂.AllDropped := by
      intro sig hmem
      obtain rfl := List.mem_singleton.1 hmem
      exact set_state_self ..
    simp only [T, List.forall_mem_cons]
    exact ⟨trivial, trivial, trivial, fun _ => hs₂, trivial, trivial, List.forall_mem_nil _⟩
  refine ⟨T, s₃, hT, by decide,
    atMostOneLanded_of_conclusive ⟨0, 200000, false⟩ .plain call hT hr fun T₁ x T₂ hx _ => hA x ?_⟩
  rw [hx]
  exact List.mem_append_right _ List.mem_cons_self

/-! ### The other runs -/

/-- The promise without the condition: a transaction is broadcast only when all those broadcast
before are dropped, and at most one of them lands. -/
def SubmitsAtMostOnce (rpc : Rpc) (sdk : Sdk) (call : RetryCall) : Prop :=
  ∀ (T : List (Chain × Client.Event)) (s' : Chain) (p' : Prog Client (Except Failure Signature)),
    network.Timeline start T s' → (call.prog rpc sdk).run.Reaches (T.map Prod.snd) p' →
      (∀ x ∈ T, BroadcastIs ResendSafe x.1 x.2.call) ∧ s'.AtMostOneLanded

/-- A transaction that is still pending when its status is queried can land after the next one
has been signed. -/
theorem exists_lands_twice {rpc : Rpc} (hstop : rpc.stop = false)
    {build : Hash → Except Failure Transaction} {h₀ h₁ : Hash} {tx₀ tx₁ : Transaction}
    {sig₀ sig₁ : Signature} (hb₀ : build h₀ = .ok tx₀) (hb₁ : build h₁ = .ok tx₁)
    (hs₀ : tx₀.signatures.head? = some sig₀) (hs₁ : tx₁.signatures.head? = some sig₁)
    (hne : sig₀ ≠ sig₁) :
    ∃ (T : List (Chain × Client.Event)) (s' : Chain), network.Timeline start T s' ∧
      (rpc.retryLoop build [0, 1, 2] none).run.Reaches (T.map Prod.snd) (.ret (.ok sig₁)) ∧
      ¬ s'.AtMostOneLanded := by
  let lost : ClientError := ⟨.io "connection reset", "connection reset"⟩
  let s₁ := start.broadcast sig₀
  let s₂ := (s₁.broadcast sig₁).set sig₁ (.landed none)
  refine ⟨[(start, ⟨.getLatestBlockhash, .ok h₀⟩),
    (start, ⟨.sendAndConfirmTransaction tx₀, .error lost⟩), (s₁, ⟨.sleep 500, ()⟩),
    (s₁, ⟨.getSignatureStatuses [sig₀], .ok [none]⟩), (s₁, ⟨.getLatestBlockhash, .ok h₁⟩),
    (s₁, ⟨.sendAndConfirmTransaction tx₁, .ok sig₁⟩)], s₂.set sig₀ (.landed none), ?_, ?_, ?_⟩
  -- the first transaction settles last, after the second has landed
  · have hpending : (s₁.broadcast sig₁).state sig₁ = .pending := by
      simp [s₁, start, broadcast, hne.symm]
    have hs₂ : s₂.state sig₀ = .pending := by
      simp [s₂, s₁, set, start, broadcast, hne, hne.symm]
    have hsettle : network.Ticks s₂ (s₂.set sig₀ (.landed none)) :=
      .single (.settle (by simp [s₂, s₁, set, start, broadcast, hne.symm]) hs₂
        (TxState.landed_ne_pending _))
    refine ⟨.refl, start, rfl, .refl, s₁, ?_, .refl, s₁, rfl, .refl, s₁, ⟨rfl, ?_⟩, .refl, s₁,
      rfl, .refl, s₂, ?_, hsettle⟩
    · simp [network, Answer, hs₀, s₁]
    · rintro _ ⟨⟩
      refine .cons ?_ .nil
      rintro _ ⟨⟩
    · simp [network, Answer, hs₁, s₂, hpending]
  · exact Rpc.retryLoop_reaches_lost hstop hb₀ hs₀ rfl (by decide)
      (Rpc.retryLoop_reaches_resent hstop hb₁ hs₁)
  · intro h
    exact hne (h sig₀ (by simp [s₂, s₁, set, start, broadcast, hne.symm]) sig₁
      (by simp [s₂, s₁, set, start, broadcast, hne.symm]) ⟨none, by simp⟩
      ⟨none, by simp [s₂, set, hne.symm]⟩)

/-- Both loops can land two of the transactions they sign. -/
theorem not_submitsAtMostOnce :
    ¬ SubmitsAtMostOnce ⟨0, 200000, false⟩ .plain (.legacy [] [.zero 32] (.zero 32)) ∧
    ¬ SubmitsAtMostOnce ⟨0, 200000, false⟩ .plain (.v0 [] [] [.zero 32] (.zero 32)) := by
  have lands : ∀ call : RetryCall, (∀ h, ∃ tx, call.build .plain h = .ok tx ∧
      tx.signatures.head? = some (plainSignature h)) →
      ¬ SubmitsAtMostOnce ⟨0, 200000, false⟩ .plain call := by
    intro call hcall honce
    obtain ⟨tx₀, hb₀, hs₀⟩ := hcall (.zero 32)
    obtain ⟨tx₁, hb₁, hs₁⟩ := hcall (.fill 32 1)
    have hstop : (⟨0, 200000, false⟩ : Rpc).stop = false := rfl
    obtain ⟨T, s', hT, hr, htwice⟩ := exists_lands_twice hstop hb₀ hb₁ hs₀ hs₁ (by decide)
    rw [← RetryCall.prog_eq] at hr
    exact htwice (honce T s' _ hT hr).2
  exact ⟨lands _ fun h => ⟨_, rfl, rfl⟩, lands _ fun h => ⟨_, rfl, rfl⟩⟩

end Chain

end YdeltaCrankers
