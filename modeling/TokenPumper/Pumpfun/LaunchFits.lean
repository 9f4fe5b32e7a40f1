import TokenPumper.Main
import TokenPumper.Pumpfun.Mints
import TokenPumper.Shreds.Launches

namespace TokenPumper
open LittleEndian ByteCursor SolanaWire Effect FileTree
set_option autoImplicit true

namespace LaunchIx

theorem exists_writeShortvec (k : Nat) :
    ∃ bs, (writeShortvec k : CursorWriter n Unit) = put bs := by
  induction k using Nat.strong_induction_on with
  | _ k ih =>
    unfold writeShortvec
    split
    · exact ⟨_, rfl⟩
    · rename_i hk
      obtain ⟨bs, hbs⟩ := ih (k / 128) (by omega)
      rw [hbs, put_seq]
      exact ⟨_, rfl⟩

theorem exists_message (inp : LaunchInputs) : ∃ bs, inp.textLen ≤ bs.length ∧
    (writeCreateV2AndBuyMessage inp : CursorWriter n Unit) = put bs := by
  obtain ⟨len, hlen⟩ := exists_writeShortvec (n := n) (inp.createV2DataLen % 65536)
  simp only [writeCreateV2AndBuyMessage, writeStr, hlen, put_seq, put_forM_bind]
  refine ⟨_, ?_, rfl⟩
  simp only [LaunchInputs.textLen, List.length_append, Borsh.length_utf8]
  omega

section Build
variable [Ed25519]

theorem buildSignedLaunchTx_isSome (inp : LaunchInputs) (funder mint : SigningKey) (out : BuiltTx)
    (h : inp.textLen ≤ 309) : ∃ out', buildSignedLaunchTx inp funder mint out = some out' := by
  have hm := length_message inp (by omega)
  have hfit : sigSectionLen + inp.message.encode.length ≤ maxTxSize := by
    rw [hm, sigSectionLen, maxTxSize]
    split <;> omega
  obtain ⟨out', hout, -⟩ := buildSigned_eq [funder, mint] inp.message.encode out rfl
    (writeCreateV2AndBuyMessage_eq inp (by omega)) hfit
  exact ⟨out', hout⟩

theorem buildSignedLaunchTx_panics (inp : LaunchInputs) (funder mint : SigningKey) (out : BuiltTx)
    (h : 309 < inp.textLen) : buildSignedLaunchTx inp funder mint out = none := by
  by_cases hsmall : inp.textLen < 16330
  · have hm := length_message inp hsmall
    apply buildSigned_panics [funder, mint] inp.message.encode out
    · exact writeCreateV2AndBuyMessage_eq inp (by omega)
    · rw [hm, sigSectionLen, maxTxSize]
      split <;> omega
  · obtain ⟨bs, hlen, hbs⟩ := exists_message (n := maxTxSize) inp
    apply buildSigned_panics [funder, mint] bs out hbs
    rw [sigSectionLen, maxTxSize]
    omega

theorem buildSignedLaunchTx_eq_none (inp : LaunchInputs) (funder mint : SigningKey)
    (out : BuiltTx) : buildSignedLaunchTx inp funder mint out = none ↔ 309 < inp.textLen := by
  constructor
  · intro hnone
    by_contra hlong
    obtain ⟨out', hout⟩ :=
      buildSignedLaunchTx_isSome inp funder mint out (Nat.le_of_not_lt hlong)
    cases hnone.symm.trans hout
  · exact buildSignedLaunchTx_panics inp funder mint out

end Build

end LaunchIx

namespace Tokens

/-- A roster in which each entry has its key is loaded as it is, whatever its texts are. -/
theorem loadAndHydrate_ready [TokenJson] {cacheDir keysDir : Path}
    {tokens : List TokenSpec} (hjson : TokenJson.RoundTrips) {env : Env} {w : World}
    (hstat : ∀ tick, env.statFails tick = false) (hio : ∀ tick, env.ioFault tick = none)
    (hfile : w.disk.lookup (tokensCacheFile :: cacheDir) = some (.file (rosterBytes tokens)))
    (hkeys : needed tokens = []) :
    (loadAndHydrate cacheDir keysDir env w).1 = .ok (some tokens) := by
  let w₁ : World := { w with tick := w.tick + 1 }
  let w₂ : World := { w with tick := w.tick + 1 + 1 }
  have hthere : fileExists (tokensCacheFile :: cacheDir) env w = (.ok true, w₁) := by
    change (Except.ok (!env.statFails w.tick &&
      (w.disk.lookup (tokensCacheFile :: cacheDir)).isSome), w₁) = _
    rw [hstat, hfile]
    rfl
  have hsyscall : syscall env w₁ = (.ok (), w₂) := by
    have hask : ask (·.ioFault) env w₁ = (.ok none, w₂) := by
      change (Except.ok (env.ioFault w₁.tick), w₂) = _
      rw [hio]
    rw [syscall, bind_run_ok hask]
    rfl
  have hread : readToString (tokensCacheFile :: cacheDir) env w₁ =
      (.ok (TokenJson.print tokens ++ ['\n']), w₂) := by
    have hfile₂ : w₂.disk.lookup (tokensCacheFile :: cacheDir) = _ := hfile
    have hcurrent : (current : Run World) env w₂ = (.ok w₂, w₂) := rfl
    rw [readToString, bind_run_ok hsyscall, bind_run_ok hcurrent, hfile₂]
    simp only [rosterBytes, Text.ofUtf8_toUtf8]
    rfl
  have htokens : readTokens (tokensCacheFile :: cacheDir) env w₁ = (.ok tokens, w₂) := by
    have hraw : withContext s!"reading {display (tokensCacheFile :: cacheDir)}"
        (readToString (tokensCacheFile :: cacheDir)) env w₁ =
        (.ok (TokenJson.print tokens ++ ['\n']), w₂) := by
      simp only [withContext, mapFailure, hread]
    rw [readTokens, bind_run_ok hraw]
    simp only [withContext, mapFailure, lift, hjson tokens]
    rfl
  rw [loadAndHydrate, bind_run_ok hthere]
  simp only [Bool.not_true, Bool.false_eq_true, if_false]
  rw [bind_run_ok htokens, hkeys]
  rfl

end Tokens

def LaunchContext.textLen (ctx : LaunchContext) : Nat :=
  ctx.name.utf8ByteSize + ctx.symbol.utf8ByteSize + ctx.uri.utf8ByteSize

section Thread
variable [Ed25519]

theorem fireLaunch_eq_none (ctx : LaunchContext) (slot : UInt64) (blockhash : Bytes 32)
    (txBuf : BuiltTx) : fireLaunch ctx slot blockhash txBuf = none ↔ 309 < ctx.textLen := by
  rw [fireLaunch, fire, Option.map_eq_none_iff]
  exact LaunchIx.buildSignedLaunchTx_eq_none _ _ _ _

/-- Building a launch stays inside the buffer exactly if name, symbol and uri have 309 bytes at
most; with more of them the receiver's thread is gone at the packet that calls for the launch. -/
theorem launch_survives_iff :
    (∀ inp funder mint out,
      LaunchIx.buildSignedLaunchTx inp funder mint out ≠ none ↔ inp.textLen ≤ 309) ∧
    ∀ (wired : Wired) receiver txBuf buf blockhash receiver' slot,
      handler wired.leaderCache wired.fireAt receiver buf = some (receiver', some slot) →
        ((wired.receivePacket receiver txBuf buf blockhash).1 ≠ .gone ↔
          wired.launchCtx.textLen ≤ 309) := by
  constructor
  · intro inp funder mint out
    rw [ne_eq, LaunchIx.buildSignedLaunchTx_eq_none, Nat.not_lt]
  · intro wired receiver txBuf buf blockhash receiver' slot h
    have hfire := fireLaunch_eq_none wired.launchCtx slot blockhash txBuf
    rw [← Nat.not_lt, ← hfire]
    simp only [Wired.receivePacket, h]
    cases fireLaunch wired.launchCtx slot blockhash txBuf with
    | none => simp
    | some fired => simp

end Thread

theorem launch_survives_sample :
    (@LaunchIx.buildSignedLaunchTx LaunchIx.sampleEd25519 LaunchIx.sampleInputs
        (Vector.replicate 32 1) (Vector.replicate 32 2) .new ≠ none ↔
      LaunchIx.sampleInputs.textLen ≤ 309) ∧
    ∀ wired : Wired, wired.leaderCache = sampleCache → wired.fireAt = 1 →
      ((@Wired.receivePacket LaunchIx.sampleEd25519 wired .new .new (sampleShred 100)
          (Vector.replicate 32 9)).1 ≠ .gone ↔ wired.launchCtx.textLen ≤ 309) := by
  have h := @launch_survives_iff LaunchIx.sampleEd25519
  refine ⟨h.1 LaunchIx.sampleInputs _ _ _, ?_⟩
  intro wired hcache hfire
  have hlaunch : handler wired.leaderCache wired.fireAt .new (sampleShred 100) =
      some (⟨⟨100, 1, true⟩, ⟨1, 0, 0⟩⟩, some 100) := by
    rw [hcache, hfire]
    decide +kernel
  exact h.2 wired .new .new (sampleShred 100) _ _ _ hlaunch

theorem utf8ByteSize_letters (n : Nat) :
    (String.ofList (List.replicate n 'a')).utf8ByteSize = n := by
  rw [← String.size_toByteArray, String.toByteArray_ofList]
  induction n with
  | zero => rfl
  | succ n ih =>
    have hone : ['a'].utf8Encode.size = 1 := rfl
    rw [List.replicate_succ, List.utf8Encode_cons, ByteArray.size_append, ih, hone, Nat.add_comm]

def longRoster : List Tokens.TokenSpec :=
  [⟨String.ofList (List.replicate 310 'a'), "L", "", "", "", false, "[1,1]"⟩,
    ⟨"Debug", "D", "sentinel", "", "", false, "[2,2]"⟩]

theorem isDir_longDisk : Tokens.sampleDirs.IsDir ["cache"] := .inr (by decide)

theorem free_longDisk : Tokens.sampleDirs.lookup ["tokens.json", "cache"] ≠ some .dir := by decide

def longDisk : Tree :=
  Tokens.sampleDirs.put "tokens.json" ["cache"] (@Tokens.rosterBytes Tokens.rosterJson longRoster)
    isDir_longDisk free_longDisk

def longInputs : LaunchIx.LaunchInputs :=
  { LaunchIx.sampleInputs with name := String.ofList (List.replicate 310 'a'), symbol := "L" }

theorem launch_panics_on_long_name :
    (@Tokens.loadAndHydrate Tokens.rosterJson ["cache"] ["keys"]
      (.calm 0 (.replicate 32 1)) (.init longDisk)).1 = .ok (some longRoster) ∧
    Tokens.pick longRoster false = .ok 0 ∧
    (longRoster[0]?).map (fun token => (token.name, token.symbol)) =
      some (longInputs.name, longInputs.symbol) ∧
    @LaunchIx.buildSignedLaunchTx LaunchIx.sampleEd25519 longInputs (Vector.replicate 32 1)
      (Vector.replicate 32 2) .new = none := by
  refine ⟨?_, rfl, rfl, ?_⟩
  · apply @Tokens.loadAndHydrate_ready Tokens.rosterJson
    · exact Tokens.rosterJson_roundTrips
    · exact fun _ => rfl
    · exact fun _ => rfl
    · exact Tree.lookup_put_self isDir_longDisk free_longDisk
    · decide
  · apply @LaunchIx.buildSignedLaunchTx_panics LaunchIx.sampleEd25519
    have hname : longInputs.name.utf8ByteSize = 310 := utf8ByteSize_letters 310
    rw [LaunchIx.LaunchInputs.textLen, hname]
    omega

end TokenPumper
