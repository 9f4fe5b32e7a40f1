import TokenPumper.Submitted
import TokenPumper.Keys.Conserved

namespace TokenPumper
open LittleEndian Machine Effect CurveSub Idl
set_option autoImplicit true

/-- What a distribution pays a wallet, as the network reads it. -/
def Event.grants (wallet : Pubkey) : Event → Nat
  | .sent .distribute _ tx _ => ((networkTx tx).map fun t =>
      (t.transfers.map fun x => if x.target = wallet then x.amount else 0).sum).getD 0
  | _ => 0

def granted (wallet : Pubkey) (log : List Event) : Nat := (log.map (Event.grants wallet)).sum

section Outlays
variable {tables : Pubkey → Option (List Pubkey)} {rent : Nat} {wallet : Pubkey}

variable [Ed25519]

theorem launch_decodes {ctx : LaunchContext}
    (h : fireLaunch ctx slot blockhash txBuf = some (built, some bs)) :
    ∃ tx, SolanaWire.decodeTransaction bs = some tx ∧
      tx.message = (ctx.inputs slot blockhash).message := by
  have hshort : (ctx.inputs slot blockhash).textLen ≤ 309 := by
    by_contra hlong
    have hnone := (fireLaunch_eq_none ctx slot blockhash txBuf).2 (Nat.lt_of_not_le hlong)
    cases hnone.symm.trans h
  obtain ⟨built', hbuilt, rfl⟩ := fire_handed h
  have hm := LaunchIx.length_message (ctx.inputs slot blockhash) (by omega)
  have hfit : LaunchIx.sigSectionLen + (ctx.inputs slot blockhash).message.encode.length ≤
      maxTxSize := by
    rw [hm, LaunchIx.sigSectionLen, maxTxSize]
    split <;> omega
  obtain ⟨out', hout', hbytes⟩ := buildSigned_eq [ctx.dev, ctx.mint]
    (ctx.inputs slot blockhash).message.encode txBuf rfl
    (LaunchIx.writeCreateV2AndBuyMessage_eq (ctx.inputs slot blockhash) (by omega)) hfit
  obtain rfl := Option.some.inj (hbuilt.symm.trans hout')
  have htwo : [ctx.dev, ctx.mint].length < 128 := by
    change 2 < 128
    omega
  have hdecodes := decodeTransaction_signedBytes [ctx.dev, ctx.mint]
    (ctx.inputs slot blockhash).message htwo (LaunchIx.fits_message _ hshort)
  rw [hbytes]
  exact ⟨_, hdecodes, rfl⟩

end Outlays

section Live
variable [Ed25519] {wired : Wired}

theorem Wired.trace_launch (hx : .launch slot handed ∈ wired.trace happenings) :
    ∃ blockhash txBuf built,
      fireLaunch wired.launchCtx slot blockhash txBuf = some (built, handed) := by
  obtain ⟨o, ho, heq⟩ := List.mem_map.1 hx
  obtain ⟨s, e, s', out, -, -, hstep, hmem⟩ := exists_of_mem_outputs wired.Within
    Wired.step_within wired.within_init ho
  obtain ⟨thread, curveSub⟩ := s
  cases e with
  | inl received =>
    obtain ⟨⟨thread', launched⟩, hlaunched, hout⟩ := Option.map_eq_some_iff.1 hstep
    obtain ⟨-, rfl⟩ := Prod.mk.inj hout
    obtain ⟨⟨slot', handed'⟩, hlaunch, rfl⟩ := List.mem_map.1 hmem
    obtain ⟨rfl, rfl⟩ := Submission.launch.inj heq
    rcases receiverStep_cases hlaunched with ⟨-, -, rfl⟩ |
      ⟨receiver, txBuf, buf, blockhash, -, -, ⟨-, rfl⟩ | ⟨_, -, rfl, -⟩ |
        ⟨_, txBuf', slot, handed, -, rfl, -, -, -, hfire⟩⟩
    · exact absurd hlaunch List.not_mem_nil
    · exact absurd hlaunch List.not_mem_nil
    · exact absurd hlaunch List.not_mem_nil
    · obtain ⟨rfl, rfl⟩ := Prod.mk.inj (List.mem_singleton.1 hlaunch)
      exact ⟨blockhash, txBuf, txBuf', hfire⟩
  | inr e =>
    obtain ⟨⟨curveSub', fired⟩, -, hout⟩ := Option.map_eq_some_iff.1 hstep
    obtain ⟨-, rfl⟩ := Prod.mk.inj hout
    obtain ⟨f, -, rfl⟩ := List.mem_map.1 hmem
    cases heq

end Live

section Distribution
variable [Ed25519] {env : Env} {w w' : World} {cfg : Config}

def given (children : List SigningKey) (assignments : List WalletAssignment) (wallet : Pubkey)
    (k : Nat) : Nat :=
  ((assignments[k]?).bind fun a => (children[a.index]?).map fun kp =>
    if Ed25519.verifyingKey kp = wallet then (a.amount + perWalletSafetyLamports).toNat
    else 0).getD 0

end Distribution

section Start
variable [Ed25519] [AddressHash] {env : Env} {w w' : World} {cfg : Config} {startup : Startup}

variable [Base58]

end Start

end TokenPumper
