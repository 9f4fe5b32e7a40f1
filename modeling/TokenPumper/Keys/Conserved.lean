import TokenPumper.Lib.Ledger
import TokenPumper.Keys.DistributeFits
import TokenPumper.Keys.Persist

namespace TokenPumper
open LittleEndian Effect FileTree Transaction
set_option autoImplicit true

def Idl.Meaning.transfer? : Idl.Meaning → Option (Ledger.Transfer Pubkey)
  | .transfer accounts lamports => some ⟨accounts.source, accounts.destination, lamports.toNat⟩
  | _ => none

/-- What the network makes of a packet with system transfers; the first signer pays 5000 lamports
a signature. -/
def networkTx (bs : List UInt8) : Option (Ledger.Tx Pubkey) :=
  if bs.length ≤ 1232 then do
    let tx ← SolanaWire.decodeTransaction bs
    let accounts ← tx.message.accounts fun _ => none
    let payer ← accounts.head?
    let ixs ← tx.message.resolve fun _ => none
    let meanings ← Idl.interpretAll ixs
    let transfers ← meanings.mapM Idl.Meaning.transfer?
    some ⟨payer.pubkey, 5000 * tx.signatures.length, transfers⟩
  else none

theorem mapM_transfer? (transfers : List (Pubkey × Pubkey × UInt64)) :
    (transfers.map fun (source, target, amount) =>
        Idl.Meaning.transfer ⟨source, target⟩ amount).mapM Idl.Meaning.transfer? =
      some (transfers.map fun (source, target, amount) => ⟨source, target, amount.toNat⟩) := by
  induction transfers with
  | nil => rfl
  | cons t transfers ih =>
    rw [List.map_cons, List.mapM_cons, ih]
    rfl

theorem length_le_of_networkTx (h : networkTx bs = some t) : bs.length ≤ 1232 := by
  rw [networkTx] at h
  split at h
  · assumption
  · cases h

section Network
variable [Ed25519] {sender eater : SigningKey} {signers : List SigningKey} {others : List Pubkey}

theorem networkTx_of_transfers {blockhash : Bytes 32}
    {transfers : List (Pubkey × Pubkey × UInt64)} (h : TransfersTx (sender :: signers)
      (transferMetas ((sender :: signers).map Ed25519.verifyingKey) others) blockhash transfers bs
      tx) (hlen : bs.length ≤ 1232) :
    networkTx bs = some ⟨Ed25519.verifyingKey sender, 5000 * (signers.length + 1),
      transfers.map fun (source, target, amount) => ⟨source, target, amount.toNat⟩⟩ := by
  have hmeaning := h.transfers fun _ => none
  obtain ⟨ixs, hixs, hall⟩ := Option.bind_eq_some_iff.1 hmeaning
  have hcount : tx.signatures.length = signers.length + 1 := by
    rw [h.signatures, List.length_map, List.length_cons]
  rw [networkTx, if_pos hlen]
  simp only [h.decodes, h.accounts, hixs, hall, mapM_transfer?, hcount, Option.bind_eq_bind,
    Option.bind_some]
  rfl

theorem networkTx_sweep {pairs : List (SigningKey × UInt64)} (hn : pairs.length ≤ 126)
    (h : buildConsolidatedSweep eater (pairs.map Prod.fst) (pairs.map Prod.snd) blockhash = some bs)
    (hlen : bs.length ≤ 1232) :
    networkTx bs = some ⟨Ed25519.verifyingKey eater, 5000 * (pairs.length + 1), pairs.map fun pair =>
      ⟨Ed25519.verifyingKey pair.1, Ed25519.verifyingKey eater, pair.2.toNat⟩⟩ := by
  obtain ⟨bs', tx, hbs, htx⟩ := sweep_decodes eater pairs blockhash hn
  obtain rfl := Option.some.inj (hbs.symm.trans h)
  rw [networkTx_of_transfers htx hlen, List.length_map, List.map_map]
  rfl

theorem networkTx_distribute {recipients : List (Pubkey × UInt64)}
    (hlen : (buildDistribute sender recipients blockhash).length ≤ 1232) :
    networkTx (buildDistribute sender recipients blockhash) =
      some ⟨Ed25519.verifyingKey sender, 5000, recipients.map fun (key, amount) =>
        ⟨Ed25519.verifyingKey sender, key, amount.toNat⟩⟩ := by
  have hle := length_buildDistribute_ge sender recipients blockhash
  obtain ⟨tx, htx⟩ := distribute_decodes sender recipients blockhash (by omega)
  rw [networkTx_of_transfers htx hlen, List.map_map]
  rfl

end Network

/-- A transaction takes from the wallets of the one set and pays into those of the other. -/
structure Moves (sources targets : Finset Pubkey) (tx : Ledger.Tx Pubkey) : Prop where
  payer : tx.payer ∈ sources
  sources : ∀ t ∈ tx.transfers, t.source ∈ sources
  targets : ∀ t ∈ tx.transfers, t.target ∈ targets

theorem Since.mono (h : Since base kind disk log) (hkind : ∀ e, kind e → kind' e) :
    Since base kind' disk log := by
  obtain ⟨more, hlog, hmore⟩ := h
  exact ⟨more, hlog, fun e he => hkind e (hmore e he)⟩

theorem tx?_of_isToday {e : Event} (h : e.isToday) : e.tx? = none := by
  cases e with
  | sent purpose recipients tx disk => cases h
  | _ => rfl

theorem tx?_of_isVerified {e : Event} (h : e.isVerified) : e.tx? = none := by
  cases e with
  | sent purpose recipients tx disk => cases h
  | _ => rfl

section Wallets
variable [Ed25519] {disk : Tree} {cfg : Config} {r : Resolved} {eater : SigningKey}

def walletsOn (disk : Tree) : Finset Pubkey :=
  (disk.nodes.keys.filterMap fun path => (keyAt disk path).map Ed25519.verifyingKey).toFinset

theorem mem_walletsOn (h : keyAt disk path = some kp) :
    Ed25519.verifyingKey kp ∈ walletsOn disk := by
  rw [walletsOn, List.mem_toFinset, List.mem_filterMap]
  refine ⟨path, ?_, by rw [h]; rfl⟩
  exact AList.mem_keys.1 (AList.lookup_isSome.1 (isSome_of_keyAt h))

theorem exists_of_mem_walletsOn (h : pk ∈ walletsOn disk) :
    ∃ path kp, keyAt disk path = some kp ∧ Ed25519.verifyingKey kp = pk := by
  rw [walletsOn, List.mem_toFinset, List.mem_filterMap] at h
  obtain ⟨path, -, hpath⟩ := h
  obtain ⟨kp, hkp, rfl⟩ := Option.map_eq_some_iff.1 hpath
  exact ⟨path, kp, hkp, rfl⟩

theorem Restorable.eater_mem (h : Restorable cfg r day disk) :
    Ed25519.verifyingKey r.eater ∈ walletsOn disk := mem_walletsOn h.eater

theorem Restorable.funder_mem (h : Restorable cfg r day disk) :
    Ed25519.verifyingKey r.funder ∈ walletsOn disk := mem_walletsOn h.funder

theorem Restorable.child_mem (h : Restorable cfg r day disk) (hkp : kp ∈ r.children) :
    Ed25519.verifyingKey kp ∈ walletsOn disk := by
  obtain ⟨i, hi⟩ := List.mem_iff_getElem?.1 hkp
  exact mem_walletsOn (h.children i kp hi)

/-- Every packet that has been sent is one of transfers out of wallets that were on the disk then,
into wallets that are on the disk now, a sweep into the eater's. -/
def Accounted (cfg : Config) : Cond := fun disk log =>
  ∀ purpose recipients tx snapshot, .sent purpose recipients tx snapshot ∈ log →
    tx.length ≤ 1232 → ∃ t, networkTx tx = some t ∧ Moves (walletsOn snapshot) (walletsOn disk) t ∧
      (purpose = .sweep → ∃ eater, keyAt disk cfg.eaterPath = some eater ∧
        ∀ x ∈ t.transfers, x.target = Ed25519.verifyingKey eater)

theorem Accounted.concat (h : Accounted cfg disk log) (hpurpose : purpose ≠ .sweep)
    (hnew : tx.length ≤ 1232 → ∃ t, networkTx tx = some t ∧
      Moves (walletsOn disk) (walletsOn disk) t) :
    Accounted cfg disk (log ++ [.sent purpose recipients tx disk]) := by
  intro purpose' recipients' tx' snapshot hmem hlen
  rcases List.mem_append.1 hmem with hold | hlast
  · exact h _ _ _ _ hold hlen
  · obtain ⟨rfl, -, rfl, rfl⟩ := Event.sent.inj (List.mem_singleton.1 hlast)
    obtain ⟨t, ht, hmoves⟩ := hnew hlen
    exact ⟨t, ht, hmoves, fun hsweep => absurd hsweep hpurpose⟩

def Event.Feeds (eater : SigningKey) : Event → Prop
  | .sent purpose _ tx disk => purpose = .sweep ∧ (tx.length ≤ 1232 → ∃ t,
      networkTx tx = some t ∧ Moves (walletsOn disk) {Ed25519.verifyingKey eater} t)
  | _ => True

theorem feeds_of_tx? {e : Event} (h : e.tx? = none) (eater : SigningKey) : e.Feeds eater := by
  cases e with
  | sent purpose recipients tx disk => cases h
  | _ => trivial

theorem accounted_of_tx? (h : ∀ e ∈ log, e.tx? = none) : Accounted cfg disk log :=
  fun _ _ _ _ hmem => absurd (h _ hmem) (Option.some_ne_none _)

/-- Up to the funding: the days are dates, the sweeps feed the eater, whose key is in its file. -/
def Swept (cfg : Config) (eater : SigningKey) : Cond := fun disk log =>
  Since [] (fun e => e.Plain ∧ e.Feeds eater) disk log ∧
    KeyStored cfg.keysDir cfg.eaterPath eater disk log

theorem Swept.plain (h : Swept cfg eater disk log) : Since [] Event.Plain disk log :=
  h.1.mono fun _ he => he.1

theorem Swept.keyAt_eater (hapart : cfg.Apart) (h : Swept cfg eater disk log) :
    keyAt disk cfg.eaterPath = some eater :=
  h.2 fun day hday => (hapart.fromDays h.plain List.mem_cons_self day hday).2

theorem Swept.accounted (hapart : cfg.Apart) (h : Swept cfg eater disk log) :
    Accounted cfg disk log := by
  intro purpose recipients tx snapshot hmem hlen
  have heater := h.keyAt_eater hapart
  obtain ⟨more, rfl, hmore⟩ := h.1
  obtain ⟨-, -, hfeeds⟩ := hmore _ hmem
  obtain ⟨t, ht, hmoves⟩ := hfeeds hlen
  have htargets (x : Ledger.Transfer Pubkey) (hx : x ∈ t.transfers) :
      x.target = Ed25519.verifyingKey eater := Finset.mem_singleton.1 (hmoves.targets x hx)
  refine ⟨t, ht, ⟨hmoves.payer, hmoves.sources, fun x hx => ?_⟩, fun _ => ⟨eater, heater, htargets⟩⟩
  rw [htargets x hx]
  exact mem_walletsOn heater

theorem swept_survives (cfg : Config) (eater : SigningKey) :
    (Swept cfg eater).Survives cfg.keysDir := by
  have htoday (e : Event) (he : e.isToday) : e.Plain ∧ e.Feeds eater :=
    ⟨plain_of_isToday he, feeds_of_tx? (tx?_of_isToday he) eater⟩
  exact (since_survives htoday (fun path bytes => ⟨plain_removed path bytes, trivial⟩) _).and
    (keyStored_survives _ _ _)

theorem swept_removes (hapart : cfg.Apart) (eater : SigningKey) :
    (Swept cfg eater).Removes (Swept cfg eater) cfg.funderPath :=
  fun _ _ bytes hf hw => ⟨hw.1.concat ⟨plain_removed _ bytes, trivial⟩,
    keyStored_removes hapart.eater _ _ hf hw.2⟩

end Wallets

section Prepare
variable [Ed25519] {env : Env} {cfg : Config} {D : Cond} {r : Resolved}

theorem keeps_recycleFunder_of (hadd : D.AddStable) (hrem : D.Removes D cfg.funderPath) :
    Keeps env (on D) (recycleFunder cfg r) := by
  rw [recycleFunder]
  split
  · exact (triple_regenerate hrem (fun _ _ hw => hw) hadd (fun _ hw => hw) fun _ hw => hw).conseq
      (fun _ hw => hw) (fun _ _ hw => hw.1) fun _ hw => hw
  · exact Keeps.pure

theorem keeps_recycleBatch_of (hD : D.Survives cfg.keysDir) :
    Keeps env (on D) (recycleBatch cfg r) := by
  rw [recycleBatch]
  split
  · exact (triple_regenerateToday cfg.batchSize hD fun _ hw => hw).conseq (fun _ hw => hw)
      (fun _ _ hw => hw.1) fun _ hw => hw
  · exact Keeps.pure

theorem keeps_sweepWallets_swept (hapart : cfg.Apart) (r : Resolved) :
    Keeps env (on fun disk log => Swept cfg r.eater disk log ∧ Stored cfg r disk log)
      (sweepWallets cfg r) := by
  apply keeps_sweepWallets_of
  right
  intro chunk blockhash hchunk hsize disk log tx htx hw
  obtain ⟨hswept, hstored⟩ := hw
  obtain ⟨day, -, hrestorable⟩ := hstored.restorable hapart hswept.plain
  have hsmall : (chunk.map fun s => (s.key, s.balance)).length ≤ 126 := by
    have hmax : chunk.length ≤ 9 := hsize
    rw [List.length_map]
    omega
  have hsource (s : Sender) (hs : s ∈ chunk) : Ed25519.verifyingKey s.key ∈ walletsOn disk := by
    rcases hchunk s hs with hkey | hchild
    · rw [hkey]
      exact hrestorable.funder_mem
    · exact hrestorable.child_mem hchild
  have hfeeds : Event.Feeds r.eater (.sent .sweep
      (chunk.map fun s => (Ed25519.verifyingKey r.eater, s.balance)) tx disk) := by
    refine ⟨rfl, fun hlen => ?_⟩
    have hpairs : buildConsolidatedSweep r.eater
        ((chunk.map fun s => (s.key, s.balance)).map Prod.fst)
        ((chunk.map fun s => (s.key, s.balance)).map Prod.snd) blockhash = some tx := by
      rw [List.map_map, List.map_map]
      exact htx
    refine ⟨_, networkTx_sweep hsmall hpairs hlen, hrestorable.eater_mem, ?_, ?_⟩
    · intro t ht
      obtain ⟨pair, hpair, rfl⟩ := List.mem_map.1 ht
      obtain ⟨s, hs, rfl⟩ := List.mem_map.1 hpair
      exact hsource s hs
    · intro t ht
      obtain ⟨pair, -, rfl⟩ := List.mem_map.1 ht
      exact Finset.mem_singleton_self _
  refine ⟨⟨hswept.1.concat ⟨plain_of_isSweep rfl, hfeeds⟩, fun hdays => ?_⟩, ?_⟩
  · exact hswept.2 fun day hday => hdays day (List.mem_append_left _ hday)
  · exact stored_logs (fun _ => day?_of_isSent) r _ rfl hstored

theorem triple_settle_swept (env : Env) (hapart : cfg.Apart) :
    Triple env (on fun _ log => log = []) (settle cfg)
      (fun r w => on (fun disk log => Swept cfg r.1.eater disk log ∧ Stored cfg r.1 disk log) w ∧
        FromAccounts cfg.accounts r.2.slots) (on (Accounted cfg)) := by
  let quiet (e : Event) : Prop := e.Plain ∧ e.tx? = none
  have hsurvives : (Since [] quiet).Survives cfg.keysDir :=
    since_survives (fun e he => ⟨plain_of_isToday he, tx?_of_isToday he⟩)
      (fun path bytes => ⟨plain_removed path bytes, rfl⟩) _
  have hquiet : ∀ w, on (Since [] quiet) w → on (Accounted cfg) w := by
    rintro ⟨tick, disk, _⟩ ⟨more, rfl, hmore⟩
    exact accounted_of_tx? fun e he => (hmore e he).2
  refine Triple.bind ((triple_resolveKeys hsurvives hquiet).conseq ?_ (fun _ _ hw => hw)
    fun _ hw => hw) fun r => ?_
  · rintro ⟨tick, disk, log⟩ hlog
    obtain rfl : log = [] := hlog
    exact since_self _ _ _
  let known : Cond := fun disk log => Swept cfg r.eater disk log ∧ Stored cfg r disk log
  have hfail (w : World) (hw : on known w) : on (Accounted cfg) w := hw.1.accounted hapart
  have hverified : known.Logs Event.isVerified := by
    intro disk log e he hw
    refine ⟨⟨hw.1.1.concat ⟨plain_of_isVerified he, feeds_of_tx? (tx?_of_isVerified he) _⟩, ?_⟩, ?_⟩
    · exact fun hdays => hw.1.2 fun day hday => hdays day (List.mem_append_left _ hday)
    · exact stored_logs (fun e => day?_of_isVerified) r e he hw.2
  refine Triple.bind ((triple_build (D := known) cfg.accounts cfg.batchSize).conseq ?_
    (fun _ _ hw => hw) hfail) fun assigner => Triple.assume fun hassigner => ?_
  · rintro w ⟨hlog, hstored⟩
    exact ⟨⟨hlog.mono fun e he => ⟨he.1, feeds_of_tx? he.2 _⟩, hstored.1⟩, hstored⟩
  refine Triple.bind ((keeps_sweepWallets_swept hapart r).conseq (fun _ hw => hw)
    (fun _ _ hw => hw) hfail) fun _ => ?_
  refine Triple.bind ((triple_gate (.inr hverified) r).conseq (fun _ hw => hw)
    (fun _ _ hw => hw.1) hfail) fun _ => Triple.pure fun w hw => ?_
  exact ⟨hw, hassigner⟩

theorem keeps_fund_accounted {disk : Tree} {assigner : Assigner}
    (h : Restorable cfg r day disk) :
    Keeps env (on fun disk' log => disk' = disk ∧ Accounted cfg disk log)
      (fund cfg ⟨r.eater, r.funder, r.dev, r.children, assigner⟩) := by
  let accounted : Cond := fun disk' log => disk' = disk ∧ Accounted cfg disk log
  have hstep {sender : SigningKey} {recipients : List (Pubkey × UInt64)} {purpose : Purpose}
      (hpurpose : purpose ≠ .sweep) (hsender : Ed25519.verifyingKey sender ∈ walletsOn disk)
      (hrecipients : ∀ recipient ∈ recipients, recipient.1 ∈ walletsOn disk) (disk' : Tree)
      (log : List Event) (blockhash : Bytes 32) (hw : accounted disk' log) :
      accounted disk' (log ++ [.sent purpose recipients
        (buildDistribute sender recipients blockhash) disk']) := by
    obtain ⟨rfl, hlog⟩ := hw
    refine ⟨rfl, hlog.concat hpurpose fun hlen => ⟨_, networkTx_distribute hlen, hsender, ?_, ?_⟩⟩
    · intro t ht
      obtain ⟨recipient, -, rfl⟩ := List.mem_map.1 ht
      exact hsender
    · intro t ht
      obtain ⟨recipient, hrecipient, rfl⟩ := List.mem_map.1 ht
      exact hrecipients recipient hrecipient
  refine Keeps.bind (keeps_eaterToFunder_of (.inr (hstep nofun h.eater_mem ?_))) fun _ => ?_
  · exact List.forall_mem_singleton.2 h.funder_mem
  · refine keeps_funderToChildren_of (.inr fun recipients hrecipients =>
      hstep nofun h.funder_mem fun recipient hmem => ?_)
    obtain ⟨a, -, hchild⟩ := Fallible.mem_of_mapM hrecipients hmem
    obtain ⟨kp, hkp, rfl⟩ := Option.map_eq_some_iff.1 hchild
    exact h.child_mem (List.mem_of_getElem? hkp)

/-- Every packet of a run takes from wallets that were on the disk when it was sent, and pays into
wallets that are there at the end. -/
theorem triple_prepare_accounted (env : Env) (hapart : cfg.Apart) :
    Triple env (on fun _ log => log = []) (prepare cfg) (fun _ => on (Accounted cfg))
      (on (Accounted cfg)) := by
  refine Triple.bind (triple_settle_swept env hapart) fun ⟨r, assigner⟩ =>
    Triple.assume fun _ => ?_
  have hplain (r : Resolved) (w : World)
      (hw : on (fun disk log => Swept cfg r.eater disk log ∧ Stored cfg r disk log) w) :
      on (fun disk log => (Since [] Event.Plain disk log ∧ Stored cfg r disk log) ∧
        Swept cfg r.eater disk log) w := ⟨⟨hw.1.plain, hw.2⟩, hw.1⟩
  refine Triple.bind (Q := fun funder => on fun disk log =>
    Swept cfg r.eater disk log ∧ Stored cfg { r with funder } disk log) ?_ fun funder => ?_
  · exact ((triple_recycleFunder hapart r).and (keeps_recycleFunder_of
      (swept_survives cfg r.eater).add (swept_removes hapart r.eater))).conseq (hplain r)
      (fun _ _ hw => ⟨hw.2, hw.1.2⟩) fun _ hw => hw.2.accounted hapart
  refine Triple.bind (Q := fun children => on fun disk log =>
    Swept cfg r.eater disk log ∧ Stored cfg { r with funder, children } disk log) ?_
    fun children => ?_
  · exact ((triple_recycleBatch { r with funder }).and (keeps_recycleBatch_of
      (swept_survives cfg r.eater))).conseq (hplain { r with funder })
      (fun _ _ hw => ⟨hw.2, hw.1.2⟩) fun _ hw => hw.2.accounted hapart
  rintro w ⟨hswept, hstored⟩
  obtain ⟨day, -, hrestorable⟩ := hstored.restorable hapart hswept.plain
  have hdone (w' : World) (hw' : on (fun disk log => disk = w.disk ∧ Accounted cfg w.disk log) w') :
      on (Accounted cfg) w' := by
    rw [on, hw'.1]
    exact hw'.2
  refine Triple.bind (x := fund cfg ⟨r.eater, funder, r.dev, children, assigner⟩)
    ((keeps_fund_accounted hrestorable).conseq (fun _ hw' => hw') (fun _ => hdone) hdone)
    (fun _ => ?_) w ⟨rfl, hswept.accounted hapart⟩
  exact Triple.pure fun _ hw' => hw'

/-- The network understands every packet of a run. Whichever of them land, in whichever order, the
wallets whose keys are on the disk at the end lose at most the fees, no other wallet gains anything,
and beyond the wallets that the run has known nothing changes. -/
theorem prepare_conserves (hapart : cfg.Apart) (env : Env) (disk : Tree)
    (landed : List (Ledger.Tx Pubkey × Bool))
    (hlanded : ∀ l ∈ landed, ∃ purpose recipients tx snapshot,
      .sent purpose recipients tx snapshot ∈ (prepare cfg env (.init disk)).2.log ∧
        networkTx tx = some l.1) (b : Pubkey → Nat) :
    let w := (prepare cfg env (.init disk)).2
    (∀ purpose recipients tx snapshot, .sent purpose recipients tx snapshot ∈ w.log →
      tx.length ≤ 1232 → (networkTx tx).isSome) ∧
    (∀ S, walletsOn w.disk ⊆ S →
      Ledger.total S b ≤ Ledger.total S (Ledger.run b landed) + Ledger.fees b landed) ∧
    (∀ pk, pk ∉ walletsOn w.disk → Ledger.run b landed pk ≤ b pk) ∧
    ∀ S, walletsOn w.disk ⊆ S → (∀ purpose recipients tx snapshot,
        .sent purpose recipients tx snapshot ∈ w.log → walletsOn snapshot ⊆ S) →
      Ledger.total S (Ledger.run b landed) + Ledger.fees b landed = Ledger.total S b ∧
      ∀ pk, pk ∉ S → Ledger.run b landed pk = b pk := by
  intro w
  have haccounted : Accounted cfg w.disk w.log :=
    (triple_prepare_accounted env hapart (.init disk) rfl).state
  have hmoves : ∀ l ∈ landed, ∃ purpose recipients tx snapshot,
      .sent purpose recipients tx snapshot ∈ w.log ∧
        Moves (walletsOn snapshot) (walletsOn w.disk) l.1 := by
    intro l hl
    obtain ⟨purpose, recipients, tx, snapshot, hmem, ht⟩ := hlanded l hl
    obtain ⟨t, ht', hmoves, -⟩ := haccounted _ _ _ _ hmem (length_le_of_networkTx ht)
    obtain rfl := Option.some.inj (ht'.symm.trans ht)
    exact ⟨purpose, recipients, tx, snapshot, hmem, hmoves⟩
  have htargets (l : Ledger.Tx Pubkey × Bool) (hl : l ∈ landed) (t : Ledger.Transfer Pubkey)
      (ht : t ∈ l.1.transfers) : t.target ∈ walletsOn w.disk := by
    obtain ⟨_, _, _, _, -, hl⟩ := hmoves l hl
    exact hl.targets t ht
  refine ⟨?_, fun S hS => ?_, fun pk hpk => ?_, fun S hS hsnapshots => ?_⟩
  · intro purpose recipients tx snapshot hmem hlen
    obtain ⟨t, ht, -⟩ := haccounted _ _ _ _ hmem hlen
    rw [ht]
    rfl
  · exact Ledger.total_le_run (fun l hl t ht => hS (htargets l hl t ht)) b
  · refine Ledger.run_le (fun l hl t ht heq => hpk ?_) b
    rw [heq]
    exact htargets l hl t ht
  · have hwithin : ∀ l ∈ landed, l.1.Within S := by
      intro l hl
      obtain ⟨purpose, recipients, tx, snapshot, hmem, hmoves⟩ := hmoves l hl
      have hsub := hsnapshots _ _ _ _ hmem
      exact ⟨hsub hmoves.payer, fun t ht => ⟨hsub (hmoves.sources t ht), hS (hmoves.targets t ht)⟩⟩
    exact ⟨Ledger.total_run hwithin b, fun pk hpk => Ledger.run_of_notMem hwithin hpk b⟩

end Prepare

def sampleRefillTx : List UInt8 :=
  @buildDistribute sampleSigner (.replicate 32 1) sampleRecipients (.replicate 32 0)

def sampleLanded : List (Ledger.Tx Pubkey × Bool) :=
  let eater := @Ed25519.verifyingKey sampleSigner (.replicate 32 1)
  [(⟨eater, 5000, sampleRecipients.map fun (key, amount) => ⟨eater, key, amount.toNat⟩⟩, true)]

theorem sampleRefill_sent :
    Event.sent .refill sampleRecipients sampleRefillTx
        (@prepare sampleSigner sampleRefill sampleChain (.init sampleEater)).2.disk ∈
      (@prepare sampleSigner sampleRefill sampleChain (.init sampleEater)).2.log := by
  decide +kernel

theorem sampleLanded_sent :
    ∀ l ∈ sampleLanded, ∃ purpose recipients tx snapshot,
      Event.sent purpose recipients tx snapshot ∈
        (@prepare sampleSigner sampleRefill sampleChain (.init sampleEater)).2.log ∧
      networkTx tx = some l.1 := by
  have hlen : sampleRefillTx.length ≤ 1232 := by
    rw [sampleRefillTx, @length_distribute sampleSigner _ _ _ (by decide)]
    decide
  rw [sampleLanded, List.forall_mem_singleton]
  exact ⟨_, _, _, _, sampleRefill_sent, @networkTx_distribute sampleSigner _ _ _ hlen⟩

theorem prepare_conserves_sample :
    let w := (@prepare sampleSigner sampleRefill sampleChain (.init sampleEater)).2
    let wallets := @walletsOn sampleSigner w.disk
    let b (_ : Pubkey) : Nat := 2000000
    Ledger.total wallets b ≤
      Ledger.total wallets (Ledger.run b sampleLanded) + Ledger.fees b sampleLanded :=
  (@prepare_conserves sampleSigner sampleRefill (apart_of_defaults _ rfl rfl rfl rfl)
    sampleChain sampleEater sampleLanded sampleLanded_sent _).2.1 _ (Finset.Subset.refl _)

end TokenPumper
