import TokenPumper.Lib.Fallible
import TokenPumper.Base58
import TokenPumper.Ed25519
import TokenPumper.Pumpfun.Constants

namespace TokenPumper
open LittleEndian Fallible
set_option autoImplicit true

def lookupTableMetaSize : Nat := 56

/-- `chunks_exact(32)`, for a given number of chunks. -/
def chunks : Nat → List UInt8 → List Pubkey
  | 0, _ => []
  | n + 1, bs =>
    if h : 32 ≤ bs.length then
      ofList (bs.take 32) (List.length_take_of_le h) :: chunks n (bs.drop 32)
    else []

def lookupTableEntries (data : List UInt8) : List Pubkey :=
  chunks ((data.drop lookupTableMetaSize).length / 32) (data.drop lookupTableMetaSize)

structure AltIndices where
  altPubkey : Pubkey
  mayhemProgram : UInt8
  solVault : UInt8
  mintAuthority : UInt8
  global : UInt8
  token2022Program : UInt8
  globalParams : UInt8
  eventAuthority : UInt8
  globalVolumeAccumulator : UInt8
  feeConfig : UInt8
  pumpFeeProgram : UInt8
deriving DecidableEq, Repr

def AltIndices.find (entries : List Pubkey) (want : Pubkey) (label : String) :
    Except String UInt8 :=
  match entries.findIdx? (fun e => decide (e = want)) with
  | some i => .ok (UInt8.ofNat i)
  | none => .error s!"ALT missing {label}"

/-- `try_into` an array of 32 bytes. -/
def toPubkey (decoded : List UInt8) (otherwise : String) : Except String Pubkey :=
  if h : decoded.length = 32 then .ok (ofList decoded h) else .error otherwise

def AltIndices.bootstrap [Base58] (accountData : String → Except String (List UInt8))
    (altB58 : String) : Except String AltIndices := do
  let decoded ← context s!"decoding ALT pubkey {altB58}" (Base58.decode altB58)
  let altPubkey ← toPubkey decoded "ALT pubkey didn't decode to 32 bytes"
  let data ← context s!"fetching ALT {altB58}" (accountData altB58)
  if data.length < lookupTableMetaSize then
    .error s!"ALT data {data.length} bytes < {lookupTableMetaSize} header"
  else if (data.drop lookupTableMetaSize).length % 32 ≠ 0 then
    .error s!"ALT body {(data.drop lookupTableMetaSize).length} bytes not multiple of 32"
  else do
    let entries := lookupTableEntries data
    let mayhemProgram ← find entries mayhemProgramId "mayhem_program"
    let solVault ← find entries solVaultPda "sol_vault"
    let mintAuthority ← find entries mintAuthorityPda "mint_authority"
    let global ← find entries globalPda "global"
    let token2022Program ← find entries token2022ProgramId "token_2022_program"
    let globalParams ← find entries globalParamsPda "global_params"
    let eventAuthority ← find entries eventAuthorityPda "event_authority"
    let globalVolumeAccumulator ←
      find entries globalVolumeAccumulatorPda "global_volume_accumulator"
    let feeConfig ← find entries feeConfigPda "fee_config"
    let pumpFeeProgram ← find entries pumpFeeProgramId "pump_fee_program"
    .ok ⟨altPubkey, mayhemProgram, solVault, mintAuthority, global, token2022Program,
      globalParams, eventAuthority, globalVolumeAccumulator, feeConfig, pumpFeeProgram⟩

/-- Every index points at the address it is named after. -/
structure AltIndices.Valid (alt : AltIndices) (entries : List Pubkey) : Prop where
  mayhemProgram : entries[alt.mayhemProgram.toNat]? = some mayhemProgramId
  solVault : entries[alt.solVault.toNat]? = some solVaultPda
  mintAuthority : entries[alt.mintAuthority.toNat]? = some mintAuthorityPda
  global : entries[alt.global.toNat]? = some globalPda
  token2022Program : entries[alt.token2022Program.toNat]? = some token2022ProgramId
  globalParams : entries[alt.globalParams.toNat]? = some globalParamsPda
  eventAuthority : entries[alt.eventAuthority.toNat]? = some eventAuthorityPda
  globalVolumeAccumulator :
    entries[alt.globalVolumeAccumulator.toNat]? = some globalVolumeAccumulatorPda
  feeConfig : entries[alt.feeConfig.toNat]? = some feeConfigPda
  pumpFeeProgram : entries[alt.pumpFeeProgram.toNat]? = some pumpFeeProgramId

theorem AltIndices.find_getElem? (hn : entries.length ≤ 256)
    (h : find entries want label = .ok i) : entries[i.toNat]? = some want := by
  simp only [find] at h
  split at h
  · rename_i j hj
    obtain ⟨hlt, hp, -⟩ := List.findIdx?_eq_some_iff_getElem.1 hj
    cases h
    rw [UInt8.toNat_ofNat_of_lt' (by simp only [UInt8.size]; omega), List.getElem?_eq_getElem hlt,
      of_decide_eq_true hp]
  · cases h

theorem AltIndices.bootstrap_valid [Base58] (h : bootstrap accountData altB58 = .ok alt)
    (hd : accountData altB58 = .ok data) (hn : (lookupTableEntries data).length ≤ 256) :
    alt.Valid (lookupTableEntries data) := by
  obtain ⟨decoded, -, h⟩ := bind_eq_ok h
  obtain ⟨altPubkey, -, h⟩ := bind_eq_ok h
  obtain ⟨data', hd', h⟩ := bind_eq_ok h
  cases hd.symm.trans (context_eq_ok hd')
  split at h
  · cases h
  split at h
  · cases h
  obtain ⟨_, h₁, h⟩ := bind_eq_ok h
  obtain ⟨_, h₂, h⟩ := bind_eq_ok h
  obtain ⟨_, h₃, h⟩ := bind_eq_ok h
  obtain ⟨_, h₄, h⟩ := bind_eq_ok h
  obtain ⟨_, h₅, h⟩ := bind_eq_ok h
  obtain ⟨_, h₆, h⟩ := bind_eq_ok h
  obtain ⟨_, h₇, h⟩ := bind_eq_ok h
  obtain ⟨_, h₈, h⟩ := bind_eq_ok h
  obtain ⟨_, h₉, h⟩ := bind_eq_ok h
  obtain ⟨_, h₁₀, h⟩ := bind_eq_ok h
  cases h
  exact ⟨find_getElem? hn h₁, find_getElem? hn h₂, find_getElem? hn h₃, find_getElem? hn h₄,
    find_getElem? hn h₅, find_getElem? hn h₆, find_getElem? hn h₇, find_getElem? hn h₈,
    find_getElem? hn h₉, find_getElem? hn h₁₀⟩

end TokenPumper
