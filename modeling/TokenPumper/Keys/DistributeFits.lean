import TokenPumper.Keys.Assigned
import TokenPumper.Keys.Encoders

namespace TokenPumper
open LittleEndian Effect FileTree Transaction
set_option autoImplicit true

theorem length_shortvec_pos (n : Nat) : 1 ≤ (shortvec n).length := by
  rw [shortvec, pushGroups]
  split
  · exact Nat.le_refl 1
  · rw [List.length_cons]
    exact Nat.le_add_left ..

theorem length_transferIx (program source target : Nat) (amount : UInt64) :
    (transferIx program source target amount).length = 17 := by
  rw [transferIx_eq]
  exact length_encode_compiledTransfer program source target amount

def Event.tx? : Event → Option (List UInt8)
  | .sent _ _ tx _ => some tx
  | _ => none

def handedOver (x : Run α) (env : Env) (w : World) : List (List UInt8) :=
  ((x env w).2.log.drop w.log.length).filterMap Event.tx?

theorem handedOver_of_log {x : Run α} {env : Env} {w : World} (more : List Event)
    (h : (x env w).2.log = w.log ++ more) : handedOver x env w = more.filterMap Event.tx? := by
  rw [handedOver, h, List.drop_left]

section Checks
variable {env : Env}

theorem build_assigns (h : Assigner.build accounts batchSize env w = (.ok assigner, w')) :
    assigner.iter.length = accounts.length ∧ ∀ a ∈ assigner.iter, a.index < batchSize := by
  have hexact := (build_eq_ok h).2
  refine ⟨by rw [← Assigner.len_eq, hexact.len], ?_⟩
  intro a ha
  obtain ⟨kp, hkp⟩ := hexact.wallets (List.replicate batchSize (Vector.replicate 32 0))
    List.length_replicate a ha
  have hlt := (List.getElem?_eq_some_iff.1 hkp).1
  rwa [List.length_replicate] at hlt

theorem checkAssignments_pass {children : List SigningKey} {assignments : List WalletAssignment}
    (h : ∀ a ∈ assignments, a.index < children.length ∧ rentExemptMinLamports ≤ a.amount)
    (w : World) : checkAssignments children assignments env w = (.ok (), w) := by
  induction assignments with
  | nil => rfl
  | cons a rest ih =>
    obtain ⟨⟨hindex, hamount⟩, hrest⟩ := List.forall_mem_cons.1 h
    rw [checkAssignments, if_neg (Nat.not_le.2 hindex), if_neg (UInt64.not_lt.2 hamount)]
    exact ih hrest

theorem checkAssignments_stop {assignments : List WalletAssignment} (ha : a ∈ assignments)
    (hlow : a.amount < rentExemptMinLamports) (children : List SigningKey) (env : Env) (w : World) :
    ∃ e, checkAssignments children assignments env w = (.error e, w) := by
  induction assignments with
  | nil => exact absurd ha List.not_mem_nil
  | cons b rest ih =>
    rw [checkAssignments]
    split
    · exact ⟨_, rfl⟩
    · split
      · exact ⟨_, rfl⟩
      · rename_i hb
        rcases List.mem_cons.1 ha with rfl | hrest
        · exact absurd hlow hb
        · exact ih hrest

end Checks

section Sent
variable [Ed25519]

theorem length_buildDistribute_ge (sender : SigningKey) (recipients : List (Pubkey × UInt64))
    (blockhash : Bytes 32) :
    49 * recipients.length + 166 ≤ (buildDistribute sender recipients blockhash).length := by
  have hkeys := length_shortvec_pos
    (Ed25519.verifyingKey sender :: (recipients.map Prod.fst ++ [systemProgram])).length
  have hcount := length_shortvec_pos recipients.length
  have hixs : ((recipients.zipIdx.map fun (p, i) =>
      transferIx (recipients.length + 1) 0 (i + 1) p.2).flatten).length =
      17 * recipients.length := by
    have h (entry : (Pubkey × UInt64) × Nat) :
        (transferIx (recipients.length + 1) 0 (entry.2 + 1) entry.1.2).length = 17 :=
      length_transferIx _ _ _ _
    exact (length_flatten_map h recipients.zipIdx).trans (by rw [List.length_zipIdx])
  simp only [buildDistribute, transfersMessage, List.length_append, length_flatMap_toList, hixs,
    List.length_map, List.length_zipIdx, List.length_cons, List.length_nil, Vector.length_toList,
    shortvec_of_lt (by decide : 1 < 128)] at hkeys hcount ⊢
  omega

theorem recipientsOf_some {children : List SigningKey} {assignments : List WalletAssignment}
    (h : ∀ a ∈ assignments, a.index < children.length) :
    ∃ recipients, recipientsOf children assignments = some recipients ∧
      recipients.length = assignments.length := by
  induction assignments with
  | nil => exact ⟨[], rfl, rfl⟩
  | cons a rest ih =>
    obtain ⟨hindex, hrest⟩ := List.forall_mem_cons.1 h
    obtain ⟨recipients, hsome, hlen⟩ := ih hrest
    have hkp : children[a.index]? = some children[a.index] := List.getElem?_eq_getElem hindex
    refine ⟨(Ed25519.verifyingKey children[a.index], a.amount + perWalletSafetyLamports) ::
      recipients, ?_, congrArg Nat.succ hlen⟩
    rw [recipientsOf] at hsome ⊢
    simp only [List.mapM_cons, hkp, Option.map_some, hsome, Option.bind_eq_bind, Option.bind_some,
      Option.pure_def]

section Distribution
variable {funder : SigningKey} {children : List SigningKey} {assigner : Assigner} {env : Env}
  {w : World}

theorem funderToChildren_run (hindex : ∀ a ∈ assigner.iter, a.index < children.length)
    (hamount : ∀ a ∈ assigner.iter, rentExemptMinLamports ≤ a.amount) (hsome : assigner.iter ≠ [])
    (funder : SigningKey) (debug : Bool) :
    ∃ recipients, recipients.length = assigner.iter.length ∧
      Distribute.funderToChildren funder children assigner debug env w =
        (if debug then pure () else do
          let blockhash ← rpc (·.latestBlockhash)
          let tx := buildDistribute funder recipients blockhash
          let reply ← sendTransaction .distribute recipients tx
          let _ ← lift (reply.mapError .error)
          pure () : Run Unit) env w := by
  obtain ⟨recipients, hrecipients, hlen⟩ := recipientsOf_some hindex
  refine ⟨recipients, hlen, ?_⟩
  have hempty : ¬assigner.isEmpty = true := mt Assigner.isEmpty_iff.1 hsome
  have hchecks : checkAssignments children assigner.iter env w = (.ok (), w) :=
    checkAssignments_pass (fun a ha => ⟨hindex a ha, hamount a ha⟩) w
  have hthere : (orPanic (some recipients) : Run (List (Pubkey × UInt64))) env w =
      (.ok recipients, w) := rfl
  rw [Distribute.funderToChildren, if_neg hempty, bind_run_ok hchecks, hrecipients,
    bind_run_ok hthere]

theorem handedOver_funderToChildren (hindex : ∀ a ∈ assigner.iter, a.index < children.length)
    (hamount : ∀ a ∈ assigner.iter, rentExemptMinLamports ≤ a.amount) (hsome : assigner.iter ≠ [])
    (funder : SigningKey) (hblockhash : env.latestBlockhash w.tick = .ok blockhash) :
    ∃ recipients, recipients.length = assigner.iter.length ∧
      handedOver (Distribute.funderToChildren funder children assigner false) env w =
        [buildDistribute funder recipients blockhash] := by
  obtain ⟨recipients, hlen, hrun⟩ := funderToChildren_run hindex hamount hsome funder false
  refine ⟨recipients, hlen, ?_⟩
  apply handedOver_of_log [.sent .distribute recipients
    (buildDistribute funder recipients blockhash) w.disk]
  rw [hrun, if_neg Bool.false_ne_true, bind_run_ok (rpc_run_ok hblockhash),
    bind_run_ok (sendTransaction_run ..)]
  cases env.sendTransaction (w.tick + 1) (buildDistribute funder recipients blockhash) with
  | ok sig => rfl
  | error chain => rfl

theorem handedOver_funderToChildren_nil
    (hindex : ∀ a ∈ assigner.iter, a.index < children.length)
    (h : assigner.iter = [] ∨ debug = true ∨ (∃ a ∈ assigner.iter, a.amount < rentExemptMinLamports)
      ∨ ∃ chain, env.latestBlockhash w.tick = .error chain) :
    handedOver (Distribute.funderToChildren funder children assigner debug) env w = [] := by
  apply handedOver_of_log []
  rw [List.append_nil]
  by_cases hnone : assigner.iter = []
  · rw [Distribute.funderToChildren, if_pos (Assigner.isEmpty_iff.2 hnone)]
    rfl
  · by_cases hlow : ∃ a ∈ assigner.iter, a.amount < rentExemptMinLamports
    · obtain ⟨a, ha, hless⟩ := hlow
      obtain ⟨e, hstop⟩ := checkAssignments_stop ha hless children env w
      rw [Distribute.funderToChildren, if_neg (mt Assigner.isEmpty_iff.1 hnone),
        bind_run_error hstop]
    · have hamount : ∀ a ∈ assigner.iter, rentExemptMinLamports ≤ a.amount :=
        fun a ha => UInt64.not_lt.1 fun hless => hlow ⟨a, ha, hless⟩
      obtain ⟨recipients, -, hrun⟩ := funderToChildren_run hindex hamount hnone funder debug
      rw [hrun]
      rcases h with h | h | h | ⟨chain, hchain⟩
      · exact absurd h hnone
      · rw [if_pos h]
        rfl
      · exact absurd h hlow
      · split
        · rfl
        · rw [bind_run_error (rpc_run_error hchain)]

/-- A distribution to the accounts fits a packet just in case there are at most twenty-one of them,
or it is not sent at all. -/
theorem distribution_fits_iff {env₀ : Env} {w₀ w₁ : World}
    (hbuild : Assigner.build accounts batchSize env₀ w₀ = (.ok assigner, w₁))
    (hchildren : children.length = batchSize) (funder : SigningKey) (debug : Bool) (env : Env)
    (w : World) :
    (∀ tx ∈ handedOver (Distribute.funderToChildren funder children assigner debug) env w,
        tx.length ≤ 1232) ↔
      accounts.length ≤ 21 ∨ debug = true ∨
        (∃ a ∈ assigner.iter, a.amount < rentExemptMinLamports) ∨
        ∃ chain, env.latestBlockhash w.tick = .error chain := by
  obtain ⟨hcount, hindex⟩ := build_assigns hbuild
  rw [← hchildren] at hindex
  by_cases hnot : assigner.iter = [] ∨ debug = true ∨
      (∃ a ∈ assigner.iter, a.amount < rentExemptMinLamports) ∨
      ∃ chain, env.latestBlockhash w.tick = .error chain
  · rw [handedOver_funderToChildren_nil hindex hnot]
    constructor
    · intro _
      rcases hnot with hnone | hnot
      · rw [← hcount, hnone]
        exact .inl (Nat.zero_le 21)
      · exact .inr hnot
    · intro _ tx htx
      exact absurd htx List.not_mem_nil
  · have hsome : assigner.iter ≠ [] := fun h => hnot (.inl h)
    have hdebug : debug = false := Bool.not_eq_true _ ▸ fun h => hnot (.inr (.inl h))
    have hamount : ∀ a ∈ assigner.iter, rentExemptMinLamports ≤ a.amount :=
      fun a ha => UInt64.not_lt.1 fun hless => hnot (.inr (.inr (.inl ⟨a, ha, hless⟩)))
    subst hdebug
    cases hblockhash : env.latestBlockhash w.tick with
    | error chain => exact absurd (.inr (.inr (.inr ⟨chain, hblockhash⟩))) hnot
    | ok blockhash =>
      obtain ⟨recipients, hlen, hsent⟩ :=
        handedOver_funderToChildren hindex hamount hsome funder hblockhash
      rw [hsent, List.forall_mem_singleton]
      rw [hcount] at hlen
      constructor
      · intro hfits
        have hle := length_buildDistribute_ge funder recipients blockhash
        exact .inl (by omega)
      · intro h
        have hfew : accounts.length ≤ 21 :=
          h.resolve_right fun h' => hnot (.inr (hblockhash ▸ h'))
        rw [length_distribute funder recipients blockhash (by omega)]
        omega

end Distribution

end Sent

def sampleFundings : List AccountFunding := [⟨1, 50000000, 0⟩, ⟨2, 60000000, 0⟩]

def sampleFunder : Env :=
  { Env.calm 0 (Vector.replicate 32 0) with
    draw := fun t => some (if t = 0 then 15000000 else 18000000)
    latestBlockhash := fun _ => .ok (Vector.replicate 32 9) }

def sampleAssigner : Assigner where
  slots := [some ⟨0, 50000000, 0⟩, some ⟨1, 60000000, 0⟩]

theorem distribution_fits_iff_sample :
    sampleFundings.length ≤ 21 ∧
      ∀ tx ∈ handedOver (@Distribute.funderToChildren sampleDistributor (Vector.replicate 32 1)
        [Vector.replicate 32 2, Vector.replicate 32 3] sampleAssigner false) sampleFunder
        (.init Tree.empty), tx.length ≤ 1232 := by
  have hbuild : Assigner.build sampleFundings 2 sampleFunder (.init Tree.empty) =
      (.ok sampleAssigner, ⟨2, Tree.empty, []⟩) := rfl
  have hfew : sampleFundings.length ≤ 21 := by decide
  exact ⟨hfew, (@distribution_fits_iff sampleDistributor _ _ _ _ _ _ _ hbuild rfl _ _ _ _).2
    (.inl hfew)⟩

def crowdedFundings : List AccountFunding :=
  (List.range 22).map fun i => ⟨i + 1, 1000000000, 0⟩

theorem crowdedFundings_build :
    ∃ assigner w, Assigner.build crowdedFundings 22 sampleFunder (.init Tree.empty) =
      (.ok assigner, w) ∧ ∀ a ∈ assigner.iter, rentExemptMinLamports ≤ a.amount :=
  ⟨_, _, rfl, by decide⟩

/-- Whatever the keys, a distribution to twenty-two accounts is too long for a packet. -/
theorem distribution_exceeds_packet :
    ¬∃ inst : Ed25519, ∀ (accounts : List AccountFunding) (batchSize : Nat) (env₀ env : Env)
      (w₀ w₁ w : World) (assigner : Assigner) (funder : SigningKey) (children : List SigningKey),
      Assigner.build accounts batchSize env₀ w₀ = (.ok assigner, w₁) →
      children.length = batchSize →
      ∀ tx ∈ handedOver (@Distribute.funderToChildren inst funder children assigner false) env w,
        tx.length ≤ 1232 := by
  intro ⟨inst, hall⟩
  let children := (List.range 22).map fun i => Vector.replicate 32 (UInt8.ofNat (i + 2))
  obtain ⟨assigner, w, hbuild, hamount⟩ := crowdedFundings_build
  have hfits := hall crowdedFundings 22 sampleFunder sampleFunder (.init Tree.empty) w
    (.init Tree.empty) assigner (Vector.replicate 32 1) children hbuild rfl
  obtain ⟨hcount, hindex⟩ := build_assigns hbuild
  have hindex' : ∀ a ∈ assigner.iter, a.index < children.length := hindex
  have hlen : assigner.iter.length = 22 := hcount
  have hsome : assigner.iter ≠ [] := fun h => by simp [h] at hlen
  have hblockhash : sampleFunder.latestBlockhash (World.init Tree.empty).tick =
      .ok (Vector.replicate 32 9) := rfl
  obtain ⟨recipients, hlen', hsent⟩ :=
    handedOver_funderToChildren hindex' hamount hsome (Vector.replicate 32 1) hblockhash
  rw [hsent, List.forall_mem_singleton] at hfits
  have hle := length_buildDistribute_ge (Vector.replicate 32 1) recipients (Vector.replicate 32 9)
  omega

end TokenPumper
