import TokenPumper.Lib.ByteParser
import TokenPumper.Lib.ByteCursor
import TokenPumper.Lib.ConstantProduct
import TokenPumper.Ed25519
import TokenPumper.Checked

namespace TokenPumper
open LittleEndian ByteCursor ConstantProduct
set_option autoImplicit true

structure GlobalCache where
  feeRecipient : Pubkey
  initialVirtualTokenReserves : UInt64
  initialVirtualSolReserves : UInt64
  feeBasisPoints : UInt64
  creatorFeeBasisPoints : UInt64
deriving DecidableEq, Repr

structure BuyQuote where
  amountTokens : UInt64
  maxSolCost : UInt64
deriving DecidableEq, Repr

def protocolFeeBps : Nat := 95

def creatorFeeBps : Nat := 30

/-- A fee in basis points, rounded up; the cast to `u64` cuts. -/
def ceilFee (x : UInt64) (bps : Nat) : Option UInt64 := do
  let scaled ← u128 (x.toNat * bps + 9999)
  pure (UInt64.ofNat (scaled / 10000))

/-- The closed-form inverse of the two fees, with its single conditional decrement. -/
def netSolFor (solIn : UInt64) : Option UInt64 := do
  let scaled ← u128 (solIn.toNat * 10000)
  let x := UInt64.ofNat (scaled / (10000 + protocolFeeBps + creatorFeeBps))
  let fp ← ceilFee x protocolFeeBps
  let fc ← ceilFee x creatorFeeBps
  let required ← u128 (x.toNat + fp.toNat + fc.toNat)
  if required > solIn.toNat then
    if x = 0 then none else some (x - 1)
  else some x

def tokensFor (vSol vTokens netSol : UInt64) : Option UInt64 :=
  if netSol = 0 ∨ vTokens = 0 then some 0
  else do
    let s := netSol.toNat - 1
    let n ← u128 (s * vTokens.toNat)
    let d ← u128 (vSol.toNat + s)
    if d = 0 then none else some (UInt64.ofNat (n / d))

/-- Quote a buy of `solIn` lamports against the initial reserves. An overflow, an underflow and
a division by zero are a panic, which is `none`. -/
def quoteBuyAtCreate (global : GlobalCache) (solIn : UInt64) : Option BuyQuote := do
  let netSol ← netSolFor solIn
  let amountTokens ←
    tokensFor global.initialVirtualSolReserves global.initialVirtualTokenReserves netSol
  pure ⟨amountTokens, solIn⟩

def netSol (solIn : Nat) : Nat :=
  let x := solIn * 10000 / 10125
  if withFees protocolFeeBps creatorFeeBps x > solIn then x - 1 else x

theorem withFees_netSol_le (solIn : Nat) :
    withFees protocolFeeBps creatorFeeBps (netSol solIn) ≤ solIn := by
  simp only [netSol]
  split
  · simp only [withFees, fee, ceilDiv, protocolFeeBps, creatorFeeBps]
    omega
  · omega

theorem ceilFee_eq (x : UInt64) (bps : Nat) (hb : bps ≤ 10000) :
    ∃ f, ceilFee x bps = some f ∧ f.toNat = fee x.toNat bps := by
  have hx := x.toNat_lt
  have hm : x.toNat * bps ≤ x.toNat * 10000 := Nat.mul_le_mul_left _ hb
  have hf : fee x.toNat bps < 2 ^ 64 := Nat.lt_of_le_of_lt (fee_le hb) hx
  refine ⟨UInt64.ofNat (fee x.toNat bps), ?_, toNat_ofNat hf⟩
  rw [ceilFee, u128_eq (by omega)]
  rfl

/-- The fees on what is left of the budget, and one off if they come to more than it. -/
theorem decrement_eq (x : UInt64) (budget : Nat) :
    ∃ n, (do
      let fp ← ceilFee x protocolFeeBps
      let fc ← ceilFee x creatorFeeBps
      let required ← u128 (x.toNat + fp.toNat + fc.toNat)
      if required > budget then
        if x = 0 then none else some (x - 1)
      else some x) = some n ∧
      n.toNat = if withFees protocolFeeBps creatorFeeBps x.toNat > budget then x.toNat - 1
        else x.toNat := by
  obtain ⟨fp, hp, hfp⟩ := ceilFee_eq x protocolFeeBps (by decide)
  obtain ⟨fc, hc, hfc⟩ := ceilFee_eq x creatorFeeBps (by decide)
  have hw : x.toNat + fp.toNat + fc.toNat = withFees protocolFeeBps creatorFeeBps x.toNat := by
    rw [hfp, hfc, withFees]
  have hr : withFees protocolFeeBps creatorFeeBps x.toNat < 2 ^ 128 := by
    have hx := x.toNat_lt
    have hfp' := fp.toNat_lt
    have hfc' := fc.toNat_lt
    omega
  simp only [hp, hc, hw, u128_eq hr, Option.bind_eq_bind, Option.bind_some]
  by_cases hover : withFees protocolFeeBps creatorFeeBps x.toNat > budget
  · have hpos : x.toNat ≠ 0 := by
      intro h0
      rw [h0, withFees, fee_zero, fee_zero] at hover
      exact Nat.not_lt_zero _ hover
    have hx0 : x ≠ 0 := fun h => hpos (UInt64.toNat_inj.2 h)
    have h1 : 1 ≤ x := UInt64.le_iff_toNat_le.2 (Nat.one_le_iff_ne_zero.2 hpos)
    refine ⟨x - 1, by rw [if_pos hover, if_neg hx0], ?_⟩
    rw [if_pos hover]
    exact UInt64.toNat_sub_of_le x 1 h1
  · exact ⟨x, if_neg hover, by rw [if_neg hover]⟩

theorem netSolFor_eq (solIn : UInt64) :
    ∃ n, netSolFor solIn = some n ∧ n.toNat = netSol solIn.toNat := by
  have hin := solIn.toNat_lt
  have hs : u128 (solIn.toNat * 10000) = some (solIn.toNat * 10000) := u128_eq (by omega)
  have hx : (UInt64.ofNat
      (solIn.toNat * 10000 / (10000 + protocolFeeBps + creatorFeeBps))).toNat =
      solIn.toNat * 10000 / 10125 := toNat_ofNat (by
    rw [protocolFeeBps, creatorFeeBps]
    omega)
  obtain ⟨n, hn, hnet⟩ := decrement_eq (UInt64.ofNat
    (solIn.toNat * 10000 / (10000 + protocolFeeBps + creatorFeeBps))) solIn.toNat
  rw [hx] at hnet
  refine ⟨n, ?_, hnet⟩
  rw [netSolFor, hs, Option.bind_eq_bind, Option.bind_some]
  exact hn

theorem tokensFor_eq (vSol vTokens n : UInt64) (hs : 0 < vSol.toNat) (ht : 0 < vTokens.toNat) :
    ∃ t, tokensFor vSol vTokens n = some t ∧
      t.toNat = amountOut vSol.toNat vTokens.toNat (n.toNat - 1) := by
  have hn := n.toNat_lt
  have hvs := vSol.toNat_lt
  have hvt := vTokens.toNat_lt
  have hlt := amountOut_lt (s := n.toNat - 1) hs ht
  have ht0 : vTokens ≠ 0 := by
    rintro rfl
    exact absurd ht (by decide)
  have hm : (n.toNat - 1) * vTokens.toNat < 2 ^ 64 * 2 ^ 64 :=
    Nat.mul_lt_mul'' (by omega) hvt
  rw [tokensFor]
  by_cases hn0 : n = 0
  · subst hn0
    refine ⟨0, if_pos (.inl rfl), ?_⟩
    simp [amountOut]
  · refine ⟨UInt64.ofNat (amountOut vSol.toNat vTokens.toNat (n.toNat - 1)), ?_,
      toNat_ofNat (by omega)⟩
    have hd : vSol.toNat + (n.toNat - 1) ≠ 0 := by omega
    have hd' : vSol.toNat + (n.toNat - 1) < 2 ^ 128 := by omega
    simp only [hn0, ht0, or_self, ↓reduceIte, u128_eq hm, u128_eq hd', hd, Option.bind_eq_bind,
      Option.bind_some, amountOut]

theorem quoteBuyAtCreate_eq (global : GlobalCache) (solIn : UInt64)
    (hs : 0 < global.initialVirtualSolReserves) (ht : 0 < global.initialVirtualTokenReserves) :
    ∃ q, quoteBuyAtCreate global solIn = some q ∧ q.maxSolCost = solIn ∧
      q.amountTokens.toNat = amountOut global.initialVirtualSolReserves.toNat
        global.initialVirtualTokenReserves.toNat (netSol solIn.toNat - 1) := by
  obtain ⟨n, hn, hnet⟩ := netSolFor_eq solIn
  obtain ⟨t, ht, htok⟩ := tokensFor_eq _ _ n hs ht
  refine ⟨⟨t, solIn⟩, ?_, rfl, by rw [htok, hnet]⟩
  rw [quoteBuyAtCreate, hn, Option.bind_eq_bind, Option.bind_some, ht]
  rfl

/-- The SDK's reverse quote with both fees, where it is defined. -/
def buyCost (vSol vTokens tokens : Nat) : Option Nat :=
  if tokens < vTokens then
    some (withFees protocolFeeBps creatorFeeBps (costOf vSol vTokens tokens))
  else none

theorem quoteBuyAtCreate_affordable (global : GlobalCache) (solIn : UInt64)
    (hs : 0 < global.initialVirtualSolReserves) (ht : 0 < global.initialVirtualTokenReserves) :
    ∃ q, quoteBuyAtCreate global solIn = some q ∧ q.maxSolCost = solIn ∧
      (0 < q.amountTokens → ∃ cost,
        buyCost global.initialVirtualSolReserves.toNat global.initialVirtualTokenReserves.toNat
          q.amountTokens.toNat = some cost ∧ cost ≤ q.maxSolCost.toNat) := by
  obtain ⟨q, hq, hm, ha⟩ := quoteBuyAtCreate_eq global solIn hs ht
  refine ⟨q, hq, hm, fun hpos => ?_⟩
  have hs' : 0 < global.initialVirtualSolReserves.toNat := hs
  have ht' : 0 < global.initialVirtualTokenReserves.toNat := ht
  have hlt := amountOut_lt (s := netSol solIn.toNat - 1) hs' ht'
  have hc := costOf_amountOut_le (s := netSol solIn.toNat - 1) hs' ht'
  have hn : 0 < netSol solIn.toNat := by
    by_contra h0
    have hz : netSol solIn.toNat = 0 := by omega
    have h0 : q.amountTokens.toNat = 0 := by
      rw [ha, hz, amountOut, Nat.zero_sub, Nat.zero_mul, Nat.zero_div]
    exact absurd hpos (by rw [UInt64.lt_iff_toNat_lt, h0]; decide)
  refine ⟨_, if_pos (by rwa [ha]), ?_⟩
  rw [ha, hm]
  calc withFees protocolFeeBps creatorFeeBps (costOf _ _ (amountOut _ _ (netSol solIn.toNat - 1)))
      ≤ withFees protocolFeeBps creatorFeeBps (netSol solIn.toNat) :=
        withFees_le_withFees (by omega)
    _ ≤ solIn.toNat := withFees_netSol_le solIn.toNat

/-- The `net_sol` of the IDL's docs: the whole overshoot is taken off. -/
def idlNetSol (spendableSolIn : Nat) : Nat :=
  let totalFeeBps := protocolFeeBps + creatorFeeBps
  let net := spendableSolIn * 10000 / (10000 + totalFeeBps)
  let fees := ceilDiv (net * protocolFeeBps) 10000 + ceilDiv (net * creatorFeeBps) 10000
  if net + fees > spendableSolIn then net - (net + fees - spendableSolIn) else net

/-- The `tokens_out` of the IDL's docs, with nothing bought for no lamport. -/
def idlTokensOut (virtualSol virtualTokens net : Nat) : Nat :=
  if net = 0 then 0 else (net - 1) * virtualTokens / (virtualSol + net - 1)

theorem idlNetSol_eq (b : Nat) : idlNetSol b = netOf protocolFeeBps creatorFeeBps b := by
  have hw (x : Nat) : x + (ceilDiv (x * protocolFeeBps) 10000 + ceilDiv (x * creatorFeeBps) 10000) =
      withFees protocolFeeBps creatorFeeBps x := by
    rw [withFees, fee, fee, Nat.add_assoc]
  simp only [idlNetSol, hw, netOf, netGuess, Nat.add_assoc]
  split
  · rfl
  · rename_i hle
    rw [Nat.sub_eq_zero_of_le (Nat.not_lt.1 hle), Nat.sub_zero]

theorem netSol_eq (b : Nat) : netSol b = netOf protocolFeeBps creatorFeeBps b := by
  have hle := withFees_netGuess_le (p := protocolFeeBps) (c := creatorFeeBps) (b := b)
  have hg : b * 10000 / 10125 = netGuess protocolFeeBps creatorFeeBps b := rfl
  simp only [netSol, hg, netOf]
  split
  · have h1 : withFees protocolFeeBps creatorFeeBps (netGuess protocolFeeBps creatorFeeBps b) - b
        = 1 := by omega
    rw [h1]
  · rename_i hle
    rw [Nat.sub_eq_zero_of_le (Nat.not_lt.1 hle), Nat.sub_zero]

theorem amountOut_eq_idlTokensOut (vSol vTokens net : Nat) :
    amountOut vSol vTokens (net - 1) = idlTokensOut vSol vTokens net := by
  rw [idlTokensOut]
  split
  · rename_i h0
    rw [h0, amountOut, Nat.zero_sub, Nat.zero_mul, Nat.zero_div]
  · rw [amountOut, Nat.add_sub_assoc (by omega)]

/-- What is left of a budget is the most that both fees can be paid on, it is the IDL's own
`net_sol`, and on positive reserves the quote is the IDL's, which grows with the budget. -/
theorem quoteBuyAtCreate_exact (solIn : UInt64) :
    ∃ n, netSolFor solIn = some n ∧
      IsGreatest
        {m : Nat | m + ceilDiv (m * protocolFeeBps) 10000 + ceilDiv (m * creatorFeeBps) 10000 ≤
          solIn.toNat} n.toNat ∧
      n.toNat = idlNetSol solIn.toNat ∧
      ∀ global : GlobalCache, 0 < global.initialVirtualSolReserves →
        0 < global.initialVirtualTokenReserves →
        ∃ q, quoteBuyAtCreate global solIn = some q ∧
          q.amountTokens.toNat = idlTokensOut global.initialVirtualSolReserves.toNat
            global.initialVirtualTokenReserves.toNat n.toNat ∧
          ∀ more q', solIn ≤ more → quoteBuyAtCreate global more = some q' →
            q.amountTokens ≤ q'.amountTokens := by
  obtain ⟨n, hn, hnet⟩ := netSolFor_eq solIn
  rw [netSol_eq] at hnet
  refine ⟨n, hn, ?_, by rw [hnet, idlNetSol_eq], ?_⟩
  · rw [hnet]
    exact netOf_isGreatest protocolFeeBps creatorFeeBps solIn.toNat
  · intro global hs ht
    obtain ⟨q, hq, -, ha⟩ := quoteBuyAtCreate_eq global solIn hs ht
    refine ⟨q, hq, by rw [ha, amountOut_eq_idlTokensOut, netSol_eq, hnet], ?_⟩
    intro more q' hle hq'
    obtain ⟨r, hr, -, ha'⟩ := quoteBuyAtCreate_eq global more hs ht
    obtain rfl : r = q' := Option.some.inj (hr.symm.trans hq')
    rw [UInt64.le_iff_toNat_le, ha, ha', netSol_eq, netSol_eq]
    apply amountOut_le_amountOut hs
    apply Nat.sub_le_sub_right
    exact netOf_le_netOf (UInt64.le_iff_toNat_le.1 hle)

def sampleGlobal : GlobalCache where
  feeRecipient := Vector.replicate 32 16
  initialVirtualTokenReserves := 1073000000000000
  initialVirtualSolReserves := 30000000000
  feeBasisPoints := 95
  creatorFeeBasisPoints := 5

theorem quoteBuyAtCreate_affordable_sample :
    ∃ q, quoteBuyAtCreate sampleGlobal 1000000000 = some q ∧ q.maxSolCost = 1000000000 ∧
      (0 < q.amountTokens → ∃ cost,
        buyCost 30000000000 1073000000000000 q.amountTokens.toNat = some cost ∧
          cost ≤ q.maxSolCost.toNat) :=
  quoteBuyAtCreate_affordable sampleGlobal 1000000000 (by decide) (by decide)

/-- One SOL leaves 987654320 lamports, and one lamport more does not lower the quote. -/
theorem quoteBuyAtCreate_exact_sample :
    ∃ n, netSolFor 1000000000 = some n ∧ n.toNat = 987654320 ∧
      ∃ q, quoteBuyAtCreate sampleGlobal 1000000000 = some q ∧
        q.amountTokens.toNat = idlTokensOut 30000000000 1073000000000000 987654320 ∧
        ∀ q', quoteBuyAtCreate sampleGlobal 1000000001 = some q' →
          q.amountTokens ≤ q'.amountTokens := by
  obtain ⟨n, hn, -, hnet, hq⟩ := quoteBuyAtCreate_exact 1000000000
  have hv : n.toNat = 987654320 := hnet.trans (by decide)
  obtain ⟨q, hq, ha, hmono⟩ := hq sampleGlobal (by decide) (by decide)
  rw [hv] at ha
  exact ⟨n, hn, hv, q, hq, ha, fun q' hq' => hmono 1000000001 q' (by decide) hq'⟩

end TokenPumper
