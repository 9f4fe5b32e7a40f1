import TokenPumper.Keys.Transaction
import TokenPumper.Pumpfun.Idl
import TokenPumper.Pumpfun.Tx

namespace TokenPumper.Transaction
open LittleEndian SolanaWire Idl
set_option autoImplicit true

theorem shortvec_eq (h : n < 65536) : shortvec n = compactU16 n := by
  rw [shortvec, Nat.mod_eq_of_lt h]
  unfold compactU16
  split
  · rename_i h₁
    have hm : n % 128 = n := by omega
    rw [pushGroups, if_pos (by omega), hm]
  · rename_i h₁
    split
    · rename_i h₂
      have hm : n / 128 % 128 = n / 128 := by omega
      rw [pushGroups, if_neg (by omega), pushGroups, if_pos (by omega), hm]
    · rename_i h₂
      have hm : n / 128 / 128 % 128 = n / 16384 := by omega
      rw [pushGroups, if_neg (by omega), pushGroups, if_neg (by omega), pushGroups,
        if_pos (by omega), hm]

theorem shortvec_of_lt (h : n < 128) : shortvec n = [UInt8.ofNat n] := by
  rw [shortvec_eq (by omega), compactU16, if_pos h]

def compiledTransfer (program source target : Nat) (amount : UInt64) : CompiledInstruction where
  programIdIndex := UInt8.ofNat program
  accounts := [UInt8.ofNat source, UInt8.ofNat target]
  data := u32 2 ++ u64 amount

theorem compiledTransfer_fits (program source target : Nat) (amount : UInt64) :
    (compiledTransfer program source target amount).Fits := by
  constructor
  · exact (by decide : 2 < 65536)
  · simp only [compiledTransfer, List.length_append, length_u32, length_u64]
    omega

theorem transferIx_eq (program source target : Nat) (amount : UInt64) :
    transferIx program source target amount =
      (compiledTransfer program source target amount).encode := rfl

/-- Accounts of signers, other accounts and the system program, and instructions for it. -/
def transfersBody (signers others : List Pubkey) (blockhash : Bytes 32)
    (ixs : List CompiledInstruction) : MessageBody where
  header := ⟨UInt8.ofNat signers.length, 0, 1⟩
  accountKeys := signers ++ (others ++ [systemProgram])
  recentBlockhash := blockhash
  instructions := ixs

theorem transfersMessage_eq (signers others : List Pubkey) (blockhash : Bytes 32)
    (ixs : List CompiledInstruction) (hk : signers.length + others.length + 1 < 65536)
    (hi : ixs.length < 65536) :
    transfersMessage [UInt8.ofNat signers.length, 0, 1] (signers ++ (others ++ [systemProgram]))
        blockhash (ixs.map CompiledInstruction.encode) =
      (Message.legacy (transfersBody signers others blockhash ixs)).encode := by
  have hl : (signers ++ (others ++ [systemProgram])).length < 65536 := by
    simp only [List.length_append, List.length_singleton]
    omega
  rw [transfersMessage, shortvec_eq hl, List.length_map, shortvec_eq hi]
  simp only [Message.encode, MessageBody.encode, transfersBody, vec, List.flatMap_def,
    List.append_assoc, List.cons_append, List.nil_append]

theorem mapIdx_eq_map {f : Nat → α → β} {g : α → β} {as : List α}
    (h : ∀ i < as.length, ∀ a, f i a = g a) : as.mapIdx f = as.map g := by
  apply List.ext_getElem
  · rw [List.length_mapIdx, List.length_map]
  · intro i hi _
    rw [List.getElem_mapIdx, List.getElem_map]
    rw [List.length_mapIdx] at hi
    exact h i hi _

/-- The roles that the header gives: the system program alone is readonly. -/
def transferMetas (signers others : List Pubkey) : List AccountMeta :=
  signers.map (fun key => ⟨key, true, true⟩) ++
    (others.map (fun key => ⟨key, false, true⟩) ++ [⟨systemProgram, false, false⟩])

theorem accounts_transfersBody (hs : signers.length < 256)
    (tables : Bytes 32 → Option (List (Bytes 32))) :
    (Message.legacy (transfersBody signers others blockhash ixs)).accounts tables =
      some (transferMetas signers others) := by
  have hn : (UInt8.ofNat signers.length).toNat = signers.length := toNat_ofNat_low hs
  have hmetas : (transfersBody signers others blockhash ixs).accountKeys.mapIdx
      (transfersBody signers others blockhash ixs).staticMeta = transferMetas signers others := by
    simp only [transfersBody, List.mapIdx_append, transferMetas]
    congr 1
    · apply mapIdx_eq_map
      intro i hi key
      simp [MessageBody.staticMeta, hn, hi]
    · congr 1
      · apply mapIdx_eq_map
        intro i hi key
        simp [MessageBody.staticMeta, hn]
        omega
      · simp [MessageBody.staticMeta, hn]
        omega
  simp only [Message.accounts, Message.lookups, List.mapM_nil, Option.bind_eq_bind,
    Option.bind_some, Option.pure_def, Message.body, hmetas, List.flatten_nil, List.append_nil]

theorem interpret_compiledTransfer {metas : List AccountMeta} (amount : UInt64)
    (hsource : metas[s]? = some ⟨source, true, true⟩)
    (htarget : metas[t]? = some ⟨target, signer, true⟩)
    (hprogram : metas[p]? = some ⟨systemProgram, false, false⟩)
    (hs : s < 256) (ht : t < 256) (hp : p < 256) :
    ((compiledTransfer p s t amount).resolve metas).bind interpret =
      some (.transfer ⟨source, target⟩ amount) := by
  simp only [CompiledInstruction.resolve, compiledTransfer, toNat_ofNat_low hp, hprogram,
    List.mapM_cons, List.mapM_nil, toNat_ofNat_low hs, hsource, toNat_ofNat_low ht, htarget,
    Option.bind_eq_bind, Option.bind_some, Option.pure_def]
  exact interpret_transfer amount rfl rfl

theorem mapM_bind_mapM {f : α → Option β} {g : β → Option γ} {h : α → γ} {as : List α}
    (hall : ∀ a ∈ as, (f a).bind g = some (h a)) :
    (as.mapM f).bind (fun bs => bs.mapM g) = some (as.map h) := by
  induction as with
  | nil => rfl
  | cons a as ih =>
    obtain ⟨b, hb, hg⟩ := Option.bind_eq_some_iff.1 (hall a List.mem_cons_self)
    obtain ⟨bs, hbs, hgs⟩ :=
      Option.bind_eq_some_iff.1 (ih fun x hx => hall x (List.mem_cons_of_mem a hx))
    simp only [List.mapM_cons, hb, hbs, Option.bind_eq_bind, Option.bind_some, Option.pure_def, hg,
      hgs, List.map_cons]

/-- The bytes are a legacy transaction of just these transfers. -/
structure TransfersTx [Ed25519] (signers : List SigningKey) (accounts : List AccountMeta)
    (blockhash : Bytes 32) (transfers : List (Pubkey × Pubkey × UInt64)) (bs : List UInt8)
    (tx : SolanaWire.Transaction) : Prop where
  decodes : decodeTransaction bs = some tx
  legacy : ∃ body, tx.message = .legacy body
  signatures : tx.signatures = signers.map (Ed25519.sign · tx.signedBytes)
  required : tx.message.body.header.numRequiredSignatures.toNat = signers.length
  accounts : ∀ tables, tx.message.accounts tables = some accounts
  blockhash : tx.message.body.recentBlockhash = blockhash
  transfers : ∀ tables, (tx.message.resolve tables).bind interpretAll =
    some (transfers.map fun (source, target, amount) => .transfer ⟨source, target⟩ amount)

section Builders
variable [Ed25519]

theorem transfersTx_signedBytes (signers : List SigningKey) (others : List Pubkey)
    (blockhash : Bytes 32) (xs : List α) (ix : α → CompiledInstruction)
    (transfer : α → Pubkey × Pubkey × UInt64) (hs : signers.length < 128)
    (hk : signers.length + others.length < 256) (hx : xs.length < 65536)
    (hix : ∀ x ∈ xs, (ix x).Fits ∧ ((ix x).resolve
        (transferMetas (signers.map Ed25519.verifyingKey) others)).bind interpret =
      some (.transfer ⟨(transfer x).1, (transfer x).2.1⟩ (transfer x).2.2)) :
    ∃ tx, TransfersTx signers (transferMetas (signers.map Ed25519.verifyingKey) others) blockhash
      (xs.map transfer) (signedBytes signers (Message.legacy (transfersBody
        (signers.map Ed25519.verifyingKey) others blockhash (xs.map ix))).encode) tx := by
  let body := transfersBody (signers.map Ed25519.verifyingKey) others blockhash (xs.map ix)
  have hn : (UInt8.ofNat (signers.map Ed25519.verifyingKey).length).toNat = signers.length := by
    rw [List.length_map, toNat_ofNat_low (by omega)]
  have hfits : (Message.legacy body).Fits := by
    constructor
    · constructor
      · simp only [Message.body, body, transfersBody, List.length_append, List.length_map,
          List.length_singleton]
        omega
      · simp only [Message.body, body, transfersBody, List.length_map]
        omega
      · intro i hi
        obtain ⟨x, hmem, rfl⟩ := List.mem_map.1 hi
        exact (hix x hmem).1
    · exact Nat.zero_lt_succ _
    · intro l hl
      cases hl
    · exact hn.trans_lt hs
  have hmetas (tables : Bytes 32 → Option (List (Bytes 32))) :
      (Message.legacy body).accounts tables =
        some (transferMetas (signers.map Ed25519.verifyingKey) others) :=
    accounts_transfersBody (by rw [List.length_map]; omega) tables
  refine ⟨⟨signers.map (Ed25519.sign · (Message.legacy body).encode), (Message.legacy body).encode,
    .legacy body⟩, ?_⟩
  constructor
  case decodes => exact decodeTransaction_signedBytes signers (.legacy body) hs hfits
  case legacy => exact ⟨body, rfl⟩
  case signatures => rfl
  case required => exact hn
  case accounts => exact hmetas
  case blockhash => rfl
  case transfers =>
    intro tables
    rw [Message.resolve, hmetas tables]
    simp only [Option.bind_eq_bind, Option.bind_some, Message.body, body, transfersBody,
      List.mapM_map, List.map_map]
    exact mapM_bind_mapM fun x hx => (hix x hx).2

def sweepIx (n : Nat) (entry : (SigningKey × UInt64) × Nat) : CompiledInstruction :=
  compiledTransfer (n + 1) (entry.2 + 1) 0 entry.1.2

def sweepBody (eater : SigningKey) (pairs : List (SigningKey × UInt64)) (blockhash : Bytes 32) :
    MessageBody :=
  transfersBody ((eater :: pairs.map Prod.fst).map Ed25519.verifyingKey) [] blockhash
    (pairs.zipIdx.map (sweepIx pairs.length))

theorem buildConsolidatedSweep_eq (eater : SigningKey) (pairs : List (SigningKey × UInt64))
    (blockhash : Bytes 32) (hn : pairs.length ≤ 126) :
    buildConsolidatedSweep eater (pairs.map Prod.fst) (pairs.map Prod.snd) blockhash =
      some (signedBytes (eater :: pairs.map Prod.fst)
        (Message.legacy (sweepBody eater pairs blockhash)).encode) := by
  have hixs (f : UInt64 × Nat → List UInt8)
      (hf : ∀ entry, f entry = transferIx (pairs.length + 1) (entry.2 + 1) 0 entry.1) :
      (pairs.map Prod.snd).zipIdx.map f =
        (pairs.zipIdx.map (sweepIx pairs.length)).map CompiledInstruction.encode := by
    rw [funext hf, List.zipIdx_map, List.map_map, List.map_map]
    rfl
  have hmsg : transfersMessage [UInt8.ofNat (pairs.length + 1), 0, 1] (Ed25519.verifyingKey eater ::
      ((pairs.map Prod.fst).map Ed25519.verifyingKey ++ [systemProgram])) blockhash
      ((pairs.zipIdx.map (sweepIx pairs.length)).map CompiledInstruction.encode) =
      (Message.legacy (sweepBody eater pairs blockhash)).encode := by
    rw [sweepBody, ← transfersMessage_eq]
    · simp
    · simp only [List.length_map, List.length_cons, List.length_nil]
      omega
    · simp only [List.length_map, List.length_zipIdx]
      omega
  rw [buildConsolidatedSweep, if_pos (by rw [List.length_map, List.length_map])]
  dsimp only
  rw [List.length_map, hixs _ fun _ => rfl, hmsg, shortvec_of_lt (by omega), signedBytes]
  simp [List.flatMap_map]

def distributeIx (n : Nat) (entry : (Pubkey × UInt64) × Nat) : CompiledInstruction :=
  compiledTransfer (n + 1) 0 (entry.2 + 1) entry.1.2

def distributeBody (sender : SigningKey) (recipients : List (Pubkey × UInt64))
    (blockhash : Bytes 32) : MessageBody :=
  transfersBody ([sender].map Ed25519.verifyingKey) (recipients.map Prod.fst) blockhash
    (recipients.zipIdx.map (distributeIx recipients.length))

theorem buildDistribute_eq (sender : SigningKey) (recipients : List (Pubkey × UInt64))
    (blockhash : Bytes 32) (hn : recipients.length ≤ 65000) :
    buildDistribute sender recipients blockhash =
      signedBytes [sender] (Message.legacy (distributeBody sender recipients blockhash)).encode := by
  have hixs : recipients.zipIdx.map (fun (p, i) =>
      transferIx (recipients.length + 1) 0 (i + 1) p.2) =
      (recipients.zipIdx.map (distributeIx recipients.length)).map CompiledInstruction.encode := by
    rw [List.map_map]
    rfl
  have hmsg : transfersMessage [1, 0, 1] (Ed25519.verifyingKey sender ::
      (recipients.map Prod.fst ++ [systemProgram])) blockhash
      (recipients.zipIdx.map (fun (p, i) => transferIx (recipients.length + 1) 0 (i + 1) p.2)) =
      (Message.legacy (distributeBody sender recipients blockhash)).encode := by
    rw [hixs, distributeBody, ← transfersMessage_eq]
    · rfl
    · simp only [List.length_map, List.length_cons, List.length_nil]
      omega
    · simp only [List.length_map, List.length_zipIdx]
      omega
  simp only [buildDistribute, hmsg]
  rw [shortvec_of_lt (by omega), signedBytes]
  simp

end Builders

theorem map_zipIdx_fst (f : α → β) (as : List α) :
    (as.zipIdx.map fun entry => f entry.1) = as.map f := by
  calc as.zipIdx.map (fun entry => f entry.1)
      = (as.zipIdx.map Prod.fst).map f := (List.map_map ..).symm
    _ = as.map f := by rw [List.zipIdx_map_fst]

theorem transferMetas_zero (key : Pubkey) (signers others : List Pubkey) :
    (transferMetas (key :: signers) others)[0]? = some ⟨key, true, true⟩ := rfl

theorem transferMetas_signer {signers : List Pubkey} {i : Nat} (others : List Pubkey)
    (h : signers[i]? = some key) :
    (transferMetas signers others)[i]? = some ⟨key, true, true⟩ := by
  obtain ⟨hlt, -⟩ := List.getElem?_eq_some_iff.1 h
  rw [transferMetas, List.getElem?_append_left (by rwa [List.length_map]), List.getElem?_map, h]
  rfl

theorem transferMetas_other (signers : List Pubkey) {others : List Pubkey} {i : Nat}
    (h : others[i]? = some key) :
    (transferMetas signers others)[signers.length + i]? = some ⟨key, false, true⟩ := by
  obtain ⟨hlt, -⟩ := List.getElem?_eq_some_iff.1 h
  have hsub : signers.length + i - signers.length = i := Nat.add_sub_cancel_left ..
  rw [transferMetas, List.getElem?_append_right (by rw [List.length_map]; omega), List.length_map,
    hsub, List.getElem?_append_left (by rwa [List.length_map]), List.getElem?_map, h]
  rfl

theorem transferMetas_last (signers others : List Pubkey) :
    (transferMetas signers others)[signers.length + others.length]? =
      some ⟨systemProgram, false, false⟩ := by
  rw [transferMetas, ← List.append_assoc, List.getElem?_append_right]
  · simp
  · simp

theorem length_encode_compiledTransfer (program source target : Nat) (amount : UInt64) :
    (compiledTransfer program source target amount).encode.length = 17 := by
  simp only [CompiledInstruction.encode, compiledTransfer, byteVec, List.length_append,
    List.length_cons, List.length_nil, length_u32, length_u64]
  rfl

theorem length_legacy (m : MessageBody) :
    (Message.legacy m).encode.length = 35 + (compactU16 m.accountKeys.length).length +
      32 * m.accountKeys.length + (compactU16 m.instructions.length).length +
      (m.instructions.flatMap CompiledInstruction.encode).length := by
  simp only [Message.encode, MessageBody.encode, vec, List.length_append, List.length_singleton,
    length_flatMap_toList, Vector.length_toList]
  omega

theorem length_flatten_map {f : α → List β} (h : ∀ a, (f a).length = k) (as : List α) :
    (as.map f).flatten.length = k * as.length := by
  induction as with
  | nil => rfl
  | cons a as ih =>
    rw [List.map_cons, List.flatten_cons, List.length_append, ih, h, List.length_cons,
      Nat.mul_succ, Nat.add_comm]

theorem length_transfersBody (signers others : List Pubkey) (blockhash : Bytes 32) (xs : List α)
    (ix : α → CompiledInstruction) (h : ∀ x, (ix x).encode.length = 17) :
    (Message.legacy (transfersBody signers others blockhash (xs.map ix))).encode.length =
      67 + (compactU16 (signers.length + others.length + 1)).length +
        32 * (signers.length + others.length) + (compactU16 xs.length).length + 17 * xs.length := by
  have hixs : ((xs.map ix).flatMap CompiledInstruction.encode).length = 17 * xs.length := by
    rw [List.flatMap_def, List.map_map]
    exact length_flatten_map h xs
  have hkeys : (signers ++ (others ++ [systemProgram])).length =
      signers.length + others.length + 1 := by
    rw [List.length_append, List.length_append, List.length_singleton, Nat.add_assoc]
  rw [length_legacy]
  simp only [transfersBody, hkeys, hixs, List.length_map]
  omega

section Decoded
variable [Ed25519]

theorem sweep_decodes (eater : SigningKey) (pairs : List (SigningKey × UInt64))
    (blockhash : Bytes 32) (hn : pairs.length ≤ 126) :
    ∃ bs tx, buildConsolidatedSweep eater (pairs.map Prod.fst) (pairs.map Prod.snd) blockhash =
        some bs ∧
      TransfersTx (eater :: pairs.map Prod.fst)
        (transferMetas ((eater :: pairs.map Prod.fst).map Ed25519.verifyingKey) []) blockhash
        (pairs.map fun pair => (Ed25519.verifyingKey pair.1, Ed25519.verifyingKey eater, pair.2))
        bs tx := by
  let keys := (eater :: pairs.map Prod.fst).map Ed25519.verifyingKey
  have hkeys : keys.length = pairs.length + 1 := by
    simp only [keys, List.length_map, List.length_cons]
  have hix : ∀ entry ∈ pairs.zipIdx, (sweepIx pairs.length entry).Fits ∧
      ((sweepIx pairs.length entry).resolve (transferMetas keys [])).bind interpret =
        some (.transfer ⟨Ed25519.verifyingKey entry.1.1, Ed25519.verifyingKey eater⟩ entry.1.2) := by
    intro ⟨⟨key, amount⟩, i⟩ hmem
    have hget := List.mk_mem_zipIdx_iff_getElem?.1 hmem
    obtain ⟨hlt, -⟩ := List.getElem?_eq_some_iff.1 hget
    have hsource : keys[i + 1]? = some (Ed25519.verifyingKey key) := by
      simp only [keys, List.map_cons, List.getElem?_cons_succ, List.getElem?_map, hget,
        Option.map_some]
    have hprogram : (transferMetas keys [])[pairs.length + 1]? =
        some ⟨systemProgram, false, false⟩ := by
      rw [← hkeys]
      exact transferMetas_last keys []
    refine ⟨compiledTransfer_fits _ _ _ _, ?_⟩
    apply interpret_compiledTransfer amount (transferMetas_signer [] hsource)
      (transferMetas_zero _ _ _) hprogram
    · omega
    · omega
    · omega
  obtain ⟨tx, htx⟩ := transfersTx_signedBytes (eater :: pairs.map Prod.fst) [] blockhash
    pairs.zipIdx (sweepIx pairs.length)
    (fun entry => (Ed25519.verifyingKey entry.1.1, Ed25519.verifyingKey eater, entry.1.2))
    (by simp only [List.length_cons, List.length_map]; omega)
    (by simp only [List.length_cons, List.length_map, List.length_nil]; omega)
    (by rw [List.length_zipIdx]; omega) hix
  refine ⟨_, tx, buildConsolidatedSweep_eq eater pairs blockhash hn, ?_⟩
  have hmap := map_zipIdx_fst (fun pair : SigningKey × UInt64 =>
    (Ed25519.verifyingKey pair.1, Ed25519.verifyingKey eater, pair.2)) pairs
  rw [← hmap]
  exact htx

theorem distribute_decodes (sender : SigningKey) (recipients : List (Pubkey × UInt64))
    (blockhash : Bytes 32) (hn : recipients.length ≤ 254) :
    ∃ tx, TransfersTx [sender]
      (transferMetas [Ed25519.verifyingKey sender] (recipients.map Prod.fst)) blockhash
      (recipients.map fun (key, amount) => (Ed25519.verifyingKey sender, key, amount))
      (buildDistribute sender recipients blockhash) tx := by
  let keys := [sender].map Ed25519.verifyingKey
  have hix : ∀ entry ∈ recipients.zipIdx, (distributeIx recipients.length entry).Fits ∧
      ((distributeIx recipients.length entry).resolve
        (transferMetas keys (recipients.map Prod.fst))).bind interpret =
        some (.transfer ⟨Ed25519.verifyingKey sender, entry.1.1⟩ entry.1.2) := by
    intro ⟨⟨key, amount⟩, i⟩ hmem
    have hget := List.mk_mem_zipIdx_iff_getElem?.1 hmem
    obtain ⟨hlt, -⟩ := List.getElem?_eq_some_iff.1 hget
    have hrecipient : (recipients.map Prod.fst)[i]? = some key := by
      simp only [List.getElem?_map, hget, Option.map_some]
    have htarget : (transferMetas keys (recipients.map Prod.fst))[i + 1]? =
        some ⟨key, false, true⟩ := by
      rw [Nat.add_comm]
      exact transferMetas_other keys hrecipient
    have hprogram : (transferMetas keys (recipients.map Prod.fst))[recipients.length + 1]? =
        some ⟨systemProgram, false, false⟩ := by
      have hlast := transferMetas_last keys (recipients.map Prod.fst)
      rw [Nat.add_comm] at hlast
      simp only [List.length_map] at hlast
      exact hlast
    refine ⟨compiledTransfer_fits _ _ _ _, ?_⟩
    apply interpret_compiledTransfer amount (transferMetas_zero _ _ _) htarget hprogram
    · omega
    · omega
    · omega
  obtain ⟨tx, htx⟩ := transfersTx_signedBytes [sender] (recipients.map Prod.fst) blockhash
    recipients.zipIdx (distributeIx recipients.length)
    (fun entry => (Ed25519.verifyingKey sender, entry.1.1, entry.1.2))
    (by simp only [List.length_cons, List.length_nil]; omega)
    (by simp only [List.length_cons, List.length_map, List.length_nil]; omega)
    (by rw [List.length_zipIdx]; omega) hix
  refine ⟨tx, ?_⟩
  have hmap := map_zipIdx_fst (fun pair : Pubkey × UInt64 =>
    (Ed25519.verifyingKey sender, pair.1, pair.2)) recipients
  rw [buildDistribute_eq sender recipients blockhash (by omega), ← hmap]
  exact htx

theorem length_sweep (eater : SigningKey) (pairs : List (SigningKey × UInt64))
    (blockhash : Bytes 32) (hn : pairs.length ≤ 125) :
    (signedBytes (eater :: pairs.map Prod.fst)
      (Message.legacy (sweepBody eater pairs blockhash)).encode).length =
      113 * pairs.length + 166 := by
  rw [length_signedBytes, sweepBody, length_transfersBody]
  · simp only [List.length_map, List.length_cons, List.length_nil, List.length_zipIdx]
    rw [length_compactU16_of_lt (by omega), length_compactU16_of_lt (by omega)]
    omega
  · intro entry
    exact length_encode_compiledTransfer _ _ _ _

theorem length_distribute (sender : SigningKey) (recipients : List (Pubkey × UInt64))
    (blockhash : Bytes 32) (hn : recipients.length ≤ 125) :
    (buildDistribute sender recipients blockhash).length = 49 * recipients.length + 166 := by
  rw [buildDistribute_eq sender recipients blockhash (by omega), length_signedBytes,
    distributeBody, length_transfersBody]
  · simp only [List.length_map, List.length_cons, List.length_nil, List.length_zipIdx]
    rw [length_compactU16_of_lt (by omega), length_compactU16_of_lt (by omega)]
    omega
  · intro entry
    exact length_encode_compiledTransfer _ _ _ _

/-- Sweeps and distributions decode to what they were built from, and a sweep of as many children
as a transaction is given fits a packet. -/
theorem wallet_transactions_decode :
    (∀ (eater : SigningKey) (children : List SigningKey) (amounts : List UInt64)
        (blockhash : Bytes 32), children.length = amounts.length → children.length ≤ 126 →
      ∃ bs tx, buildConsolidatedSweep eater children amounts blockhash = some bs ∧
        TransfersTx (eater :: children)
          (⟨Ed25519.verifyingKey eater, true, true⟩ ::
            (children.map (fun child => ⟨Ed25519.verifyingKey child, true, true⟩) ++
              [⟨systemProgram, false, false⟩])) blockhash
          ((children.zip amounts).map fun (child, amount) =>
            (Ed25519.verifyingKey child, Ed25519.verifyingKey eater, amount)) bs tx ∧
        (children.length ≤ maxChildrenPerSweepTx →
          bs.length = 113 * children.length + 166 ∧ bs.length ≤ 1232)) ∧
    ∀ (sender : SigningKey) (recipients : List (Pubkey × UInt64)) (blockhash : Bytes 32),
      recipients.length ≤ 254 →
      ∃ tx, TransfersTx [sender]
        (⟨Ed25519.verifyingKey sender, true, true⟩ ::
          (recipients.map (fun (key, _) => ⟨key, false, true⟩) ++
            [⟨systemProgram, false, false⟩])) blockhash
        (recipients.map fun (key, amount) => (Ed25519.verifyingKey sender, key, amount))
        (buildDistribute sender recipients blockhash) tx := by
  constructor
  · intro eater children amounts blockhash hlen hn
    have hc : (children.zip amounts).map Prod.fst = children := List.map_fst_zip (by omega)
    have ha : (children.zip amounts).map Prod.snd = amounts := List.map_snd_zip (by omega)
    have hl : (children.zip amounts).length = children.length := by
      rw [List.length_zip]
      omega
    obtain ⟨bs, tx, hbs, htx⟩ :=
      sweep_decodes eater (children.zip amounts) blockhash (by omega)
    have hbs' := buildConsolidatedSweep_eq eater (children.zip amounts) blockhash (by omega)
    obtain rfl := Option.some.inj (hbs.symm.trans hbs')
    rw [hc, ha] at hbs
    refine ⟨_, tx, hbs, ?_, ?_⟩
    · simp only [hc, transferMetas, List.map_cons, List.map_map, List.map_nil, List.nil_append,
        List.cons_append] at htx
      exact htx
    · intro hmax
      have hmax' : children.length ≤ 9 := hmax
      have hsize := length_sweep eater (children.zip amounts) blockhash (by omega)
      rw [hc, hl] at hsize
      rw [hsize]
      omega
  · intro sender recipients blockhash hn
    obtain ⟨tx, htx⟩ := distribute_decodes sender recipients blockhash hn
    refine ⟨tx, ?_⟩
    simp only [transferMetas, List.map_cons, List.map_nil, List.map_map] at htx
    exact htx

end Decoded

abbrev sampleSweepSigners : Ed25519 := .ofVectors samplePublics [
    (Vector.replicate 32 1, #v[
      58, 160, 240, 205, 16, 189, 145, 158, 25, 58, 113, 162, 194, 14, 9, 155, 89, 142, 64, 169, 13,
      74, 1, 198, 2, 208, 201, 183, 49, 72, 125, 234, 184, 142, 7, 127, 61, 150, 126, 211, 216, 232,
      5, 130, 38, 195, 223, 83, 181, 56, 64, 74, 161, 93, 136, 79, 12, 122, 76, 162, 79, 214, 129,
      10]),
    (Vector.replicate 32 2, #v[
      244, 2, 22, 47, 144, 122, 97, 103, 184, 48, 97, 196, 2, 51, 175, 16, 221, 149, 63, 157, 121,
      176, 94, 199, 32, 85, 251, 71, 183, 113, 191, 127, 243, 110, 230, 146, 180, 61, 161, 139, 208,
      11, 112, 138, 43, 24, 197, 197, 24, 174, 168, 48, 62, 152, 225, 239, 88, 239, 11, 138, 126,
      243, 220, 2]),
    (Vector.replicate 32 3, #v[
      209, 119, 36, 192, 153, 199, 179, 1, 11, 38, 202, 85, 26, 96, 122, 228, 1, 139, 88, 44, 211,
      195, 164, 211, 110, 139, 200, 228, 204, 128, 213, 162, 150, 154, 219, 192, 35, 229, 0, 198,
      220, 173, 174, 32, 239, 133, 115, 178, 249, 32, 123, 75, 115, 189, 21, 142, 233, 94, 251, 48,
      79, 208, 85, 10])]

abbrev sampleDistributor : Ed25519 := .ofVectors samplePublics [
    (Vector.replicate 32 1, #v[
      74, 88, 82, 250, 12, 66, 24, 9, 98, 74, 48, 253, 89, 170, 27, 163, 142, 54, 34, 244, 127, 222,
      59, 150, 153, 33, 99, 213, 67, 172, 127, 104, 210, 28, 173, 133, 56, 76, 159, 8, 1, 255, 214,
      108, 49, 145, 216, 138, 71, 69, 162, 200, 85, 103, 226, 216, 1, 153, 5, 121, 210, 252, 66, 12])]

def samplePairs : List (Pubkey × UInt64) := [(samplePublic2, 150000000), (samplePublic3, 160000000)]

theorem wallet_transactions_decode_sample :
    (∃ bs tx, @buildConsolidatedSweep sampleSweepSigners (Vector.replicate 32 1)
        [Vector.replicate 32 2, Vector.replicate 32 3] [1000000, 2500000] (Vector.replicate 32 9) =
        some bs ∧
      @TransfersTx sampleSweepSigners
        [Vector.replicate 32 1, Vector.replicate 32 2, Vector.replicate 32 3]
        [⟨samplePublic1, true, true⟩, ⟨samplePublic2, true, true⟩, ⟨samplePublic3, true, true⟩,
          ⟨systemProgram, false, false⟩] (Vector.replicate 32 9)
        [(samplePublic2, samplePublic1, 1000000), (samplePublic3, samplePublic1, 2500000)] bs tx ∧
      bs.length = 392) ∧
    ∃ tx, @TransfersTx sampleDistributor [Vector.replicate 32 1]
      [⟨samplePublic1, true, true⟩, ⟨samplePublic2, false, true⟩, ⟨samplePublic3, false, true⟩,
        ⟨systemProgram, false, false⟩] (Vector.replicate 32 9)
      [(samplePublic1, samplePublic2, 150000000), (samplePublic1, samplePublic3, 160000000)]
      (@buildDistribute sampleDistributor (Vector.replicate 32 1) samplePairs
        (Vector.replicate 32 9)) tx := by
  constructor
  · obtain ⟨bs, tx, hbs, htx, hsize⟩ := (@wallet_transactions_decode sampleSweepSigners).1
      (Vector.replicate 32 1) [Vector.replicate 32 2, Vector.replicate 32 3] [1000000, 2500000]
      (Vector.replicate 32 9) rfl (by decide)
    exact ⟨bs, tx, hbs, htx, (hsize (by decide)).1⟩
  · exact (@wallet_transactions_decode sampleDistributor).2 (Vector.replicate 32 1) samplePairs
      (Vector.replicate 32 9) (by decide)

end TokenPumper.Transaction
