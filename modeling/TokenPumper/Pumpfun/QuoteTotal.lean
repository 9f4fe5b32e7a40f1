import TokenPumper.Pumpfun.Alt
import TokenPumper.Pumpfun.Quote

namespace TokenPumper
open LittleEndian Fallible ConstantProduct
set_option autoImplicit true

def feeRecipientOffset : Nat := 8 + 1 + 32

def initialVirtualTokenReservesOffset : Nat := feeRecipientOffset + 32

def initialVirtualSolReservesOffset : Nat := initialVirtualTokenReservesOffset + 8

def feeBasisPointsOffset : Nat := initialVirtualSolReservesOffset + 8 + 8 + 8

def creatorFeeBasisPointsOffset : Nat := feeBasisPointsOffset + 8 + 32 + 1 + 8

def minGlobalLen : Nat := creatorFeeBasisPointsOffset + 8

/-- What the program takes from the account of the global settings. -/
def GlobalCache.bootstrap [Base58Encode] (accountData : String → Except String (List UInt8)) :
    Except String GlobalCache := do
  let globalB58 := Base58Encode.encode globalPda.toList
  let data ← context s!"fetching Global account at {globalB58}" (accountData globalB58)
  let u64At offset := toU64 ((data.drop offset).take 8)
  if h : data.length < minGlobalLen then
    .error s!"Global account data is {data.length} bytes, want ≥ {minGlobalLen}"
  else .ok {
    feeRecipient := ofList ((data.drop feeRecipientOffset).take 32) (by
      simp only [minGlobalLen, creatorFeeBasisPointsOffset, feeBasisPointsOffset,
        initialVirtualSolReservesOffset, initialVirtualTokenReservesOffset,
        feeRecipientOffset] at h
      simp only [feeRecipientOffset, List.length_take, List.length_drop]
      omega)
    initialVirtualTokenReserves := u64At initialVirtualTokenReservesOffset
    initialVirtualSolReserves := u64At initialVirtualSolReservesOffset
    feeBasisPoints := u64At feeBasisPointsOffset
    creatorFeeBasisPoints := u64At creatorFeeBasisPointsOffset }

def ceilFeeChecked (x : UInt64) (bps : Nat) : Option UInt64 := do
  let scaled ← u128 (x.toNat * bps + 9999)
  narrow (scaled / 10000)

def netSolForChecked (solIn : UInt64) : Option UInt64 := do
  let scaled ← u128 (solIn.toNat * 10000)
  let x ← narrow (scaled / (10000 + protocolFeeBps + creatorFeeBps))
  let fp ← ceilFeeChecked x protocolFeeBps
  let fc ← ceilFeeChecked x creatorFeeBps
  let required ← u128 (x.toNat + fp.toNat + fc.toNat)
  checkedSub x (if required > solIn.toNat then 1 else 0)

def tokensForChecked (vSol vTokens netSol : UInt64) : Option UInt64 :=
  if netSol = 0 ∨ vTokens = 0 then some 0
  else do
    let s ← checkedSub netSol 1
    let n ← u128 (s.toNat * vTokens.toNat)
    let d ← u128 (vSol.toNat + s.toNat)
    let quotient ← checkedDiv n d
    narrow quotient

/-- The quote with a check at every operation and at every cast. -/
def quoteBuyAtCreateChecked (global : GlobalCache) (solIn : UInt64) : Option BuyQuote := do
  let netSol ← netSolForChecked solIn
  let amountTokens ←
    tokensForChecked global.initialVirtualSolReserves global.initialVirtualTokenReserves netSol
  pure ⟨amountTokens, solIn⟩

/-- Every check passes, and the quote is the one that the program computes. -/
def QuoteTotal (global : GlobalCache) (solIn : UInt64) : Prop :=
  ∃ quote, quoteBuyAtCreateChecked global solIn = some quote ∧
    quoteBuyAtCreate global solIn = some quote

theorem ceilFeeChecked_eq (x : UInt64) (bps : Nat) (hb : bps ≤ 10000) :
    ceilFeeChecked x bps = ceilFee x bps := by
  have hx := x.toNat_lt
  have hm : x.toNat * bps ≤ x.toNat * 10000 := Nat.mul_le_mul_left _ hb
  rw [ceilFeeChecked, ceilFee, u128_eq (by omega), Option.bind_eq_bind, Option.bind_some,
    narrow_eq (by omega)]
  rfl

theorem checkedDecrement_eq (x : UInt64) (budget : Nat) :
    (do
      let fp ← ceilFeeChecked x protocolFeeBps
      let fc ← ceilFeeChecked x creatorFeeBps
      let required ← u128 (x.toNat + fp.toNat + fc.toNat)
      checkedSub x (if required > budget then 1 else 0)) =
    (do
      let fp ← ceilFee x protocolFeeBps
      let fc ← ceilFee x creatorFeeBps
      let required ← u128 (x.toNat + fp.toNat + fc.toNat)
      if required > budget then
        if x = 0 then none else some (x - 1)
      else some x) := by
  obtain ⟨fp, hp, hfp⟩ := ceilFee_eq x protocolFeeBps (by decide)
  obtain ⟨fc, hc, hfc⟩ := ceilFee_eq x creatorFeeBps (by decide)
  have hr : u128 (x.toNat + fp.toNat + fc.toNat) = some (x.toNat + fp.toNat + fc.toNat) := by
    have hxlt := x.toNat_lt
    have hfplt := fp.toNat_lt
    have hfclt := fc.toNat_lt
    exact u128_eq (by omega)
  rw [ceilFeeChecked_eq x protocolFeeBps (by decide), ceilFeeChecked_eq x creatorFeeBps (by decide),
    hp, hc]
  simp only [Option.bind_eq_bind, Option.bind_some, hr]
  by_cases hover : x.toNat + fp.toNat + fc.toNat > budget
  · have hpos : x ≠ 0 := by
      intro h0
      rw [hfp, hfc, h0, UInt64.toNat_zero, fee_zero, fee_zero] at hover
      exact Nat.not_lt_zero _ hover
    rw [if_pos hover, if_pos hover, if_neg hpos]
    apply checkedSub_eq
    rw [UInt64.le_iff_toNat_le]
    have hne : x.toNat ≠ 0 := fun h => hpos (UInt64.toNat_inj.1 h)
    exact Nat.one_le_iff_ne_zero.2 hne
  · rw [if_neg hover, if_neg hover, checkedSub_eq UInt64.zero_le, UInt64.sub_zero]

theorem netSolForChecked_eq (solIn : UInt64) : netSolForChecked solIn = netSolFor solIn := by
  have hin := solIn.toNat_lt
  have hs : u128 (solIn.toNat * 10000) = some (solIn.toNat * 10000) := u128_eq (by omega)
  have hx : narrow (solIn.toNat * 10000 / (10000 + protocolFeeBps + creatorFeeBps)) =
      some (UInt64.ofNat (solIn.toNat * 10000 / (10000 + protocolFeeBps + creatorFeeBps))) := by
    apply narrow_eq
    rw [protocolFeeBps, creatorFeeBps]
    omega
  rw [netSolForChecked, netSolFor, hs, Option.bind_eq_bind, Option.bind_some, hx,
    Option.bind_eq_bind, Option.bind_some, Option.bind_some]
  exact checkedDecrement_eq _ _

theorem tokensForChecked_none (h : vTokens ≠ 0) : tokensForChecked 0 vTokens 1 = none := by
  have hone : ¬((1 : UInt64) = 0 ∨ vTokens = 0) := not_or.2 ⟨by decide, h⟩
  have hsub : checkedSub 1 1 = some 0 := rfl
  have hn : u128 ((0 : UInt64).toNat * vTokens.toNat) = some 0 := by
    rw [UInt64.toNat_zero, Nat.zero_mul]
    rfl
  have hd : u128 ((0 : UInt64).toNat + (0 : UInt64).toNat) = some 0 := rfl
  rw [tokensForChecked, if_neg hone]
  simp only [hsub, hn, hd, Option.bind_eq_bind, Option.bind_some]
  rfl

theorem tokensForChecked_eq {vSol vTokens n : UInt64}
    (h : ¬(vSol = 0 ∧ vTokens ≠ 0 ∧ n = 1)) :
    ∃ t, tokensForChecked vSol vTokens n = some t ∧ tokensFor vSol vTokens n = some t := by
  rw [tokensForChecked, tokensFor]
  by_cases hzero : n = 0 ∨ vTokens = 0
  · exact ⟨0, if_pos hzero, if_pos hzero⟩
  · obtain ⟨hn, htokens⟩ := not_or.1 hzero
    have hne : n.toNat ≠ 0 := fun h => hn (UInt64.toNat_inj.1 h)
    have hone : (1 : UInt64) ≤ n := UInt64.le_iff_toNat_le.2 (Nat.one_le_iff_ne_zero.2 hne)
    have hsub : (n - 1).toNat = n.toNat - 1 := UInt64.toNat_sub_of_le n 1 hone
    have hnlt := n.toNat_lt
    have hvs := vSol.toNat_lt
    have hvt := vTokens.toNat_lt
    have hm : (n.toNat - 1) * vTokens.toNat < 2 ^ 64 * 2 ^ 64 := Nat.mul_lt_mul'' (by omega) hvt
    have hd : vSol.toNat + (n.toNat - 1) < 2 ^ 128 := by omega
    have hdiv : vSol.toNat + (n.toNat - 1) ≠ 0 := by
      intro hsum
      have hsol : vSol = 0 := UInt64.toNat_inj.1 (by rw [UInt64.toNat_zero]; omega)
      have hnet : n = 1 := UInt64.toNat_inj.1 (by change n.toNat = 1; omega)
      exact h ⟨hsol, htokens, hnet⟩
    have hq : (n.toNat - 1) * vTokens.toNat / (vSol.toNat + (n.toNat - 1)) < 2 ^ 64 := by
      apply Nat.div_lt_of_lt_mul
      calc (n.toNat - 1) * vTokens.toNat
          ≤ (vSol.toNat + (n.toNat - 1)) * vTokens.toNat :=
            Nat.mul_le_mul_right _ (Nat.le_add_left _ _)
        _ < (vSol.toNat + (n.toNat - 1)) * 2 ^ 64 :=
            Nat.mul_lt_mul_of_pos_left hvt (Nat.pos_of_ne_zero hdiv)
    rw [if_neg hzero, if_neg hzero]
    simp only [checkedSub_eq hone, hsub, u128_eq hm, u128_eq hd, checkedDiv_eq hdiv, narrow_eq hq,
      if_neg hdiv, Option.bind_eq_bind, Option.bind_some]
    exact ⟨_, rfl, rfl⟩

theorem netSol_eq_one_iff (solIn : Nat) : netSol solIn = 1 ↔ solIn = 3 := by
  constructor
  · intro h
    simp only [netSol] at h
    split at h
    all_goals
      simp only [withFees, fee, ceilDiv, protocolFeeBps, creatorFeeBps] at *
      omega
  · rintro rfl
    decide

/-- The quote is computed without a panic or a lossy cast on all reserves and budgets, but for
three lamports against tokens without any virtual SOL. -/
theorem quote_total_iff (global : GlobalCache) (solIn : UInt64) :
    QuoteTotal global solIn ↔ ¬(global.initialVirtualSolReserves = 0 ∧
      global.initialVirtualTokenReserves ≠ 0 ∧ solIn = 3) := by
  obtain ⟨n, hn, hnet⟩ := netSolFor_eq solIn
  have hthree : n = 1 ↔ solIn = 3 := by
    rw [← UInt64.toNat_inj, hnet, ← UInt64.toNat_inj (a := solIn)]
    exact netSol_eq_one_iff solIn.toNat
  rw [QuoteTotal, quoteBuyAtCreateChecked, quoteBuyAtCreate, netSolForChecked_eq, hn, ← hthree]
  simp only [Option.bind_eq_bind, Option.bind_some]
  constructor
  · rintro ⟨quote, hquote, -⟩ ⟨hsol, htokens, hone⟩
    rw [hsol, hone, tokensForChecked_none htokens] at hquote
    cases hquote
  · intro h
    obtain ⟨t, hchecked, ht⟩ := tokensForChecked_eq h
    rw [hchecked, ht]
    exact ⟨⟨t, solIn⟩, rfl, rfl⟩

/-- An account of the least length with one virtual token and no virtual SOL. -/
def noSolAccount : List UInt8 :=
  List.replicate initialVirtualTokenReservesOffset 7 ++ LittleEndian.u64 1 ++ LittleEndian.u64 0 ++
    List.replicate (minGlobalLen - initialVirtualSolReservesOffset - 8) 0

def noSolGlobal : GlobalCache := ⟨Vector.replicate 32 7, 1, 0, 0, 0⟩

theorem quote_panics_without_sol :
    @GlobalCache.bootstrap ⟨fun _ => "4wTV1YmiEkRvAtNtsSGPtUrqRYQMe5SKy2uB4Jjaxnjf"⟩
      (fun _ => .ok noSolAccount) = .ok noSolGlobal ∧
    quoteBuyAtCreate noSolGlobal 3 = none ∧ ¬QuoteTotal noSolGlobal 3 := by
  have hnone : quoteBuyAtCreate noSolGlobal 3 = none := by decide +kernel
  refine ⟨by decide +kernel, hnone, ?_⟩
  rintro ⟨quote, -, hquote⟩
  cases hnone.symm.trans hquote

end TokenPumper
