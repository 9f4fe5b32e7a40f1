import TokenPumper.Keys.SweepBooks

namespace TokenPumper
open LittleEndian Effect Transaction
set_option autoImplicit true

def feeOf (members : List (Sender × Nat)) : Nat := 5000 * (members.length + 1)

/-- The fee is taken from the eater before a transfer of the transaction is made. -/
def Attempt.Payable (a : Attempt) : Prop := feeOf a.members ≤ a.runningEater.toNat

def leavesRent (runningEater : UInt64) (members : List (Sender × Nat)) : Bool :=
  rentExemptMinLamports ≤ projectedEater runningEater (members.map Prod.fst)

theorem feeOf_le {members : List (Sender × Nat)} (hsize : members.length ≤ maxChildrenPerSweepTx)
    (hrent : rentExemptMinLamports ≤ runningEater) : feeOf members ≤ runningEater.toNat := by
  have hmax : members.length ≤ 9 := hsize
  have hmin : rentExemptMinLamports.toNat = 890880 := rfl
  rw [UInt64.le_iff_toNat_le, hmin] at hrent
  rw [feeOf]
  omega

section Loop
variable [Ed25519] {env : Env} {eater : SigningKey} {blockhash : Bytes 32}

theorem Attempt.Decided.reply_eq_none_iff {a : Attempt} (h : a.Decided env eater blockhash t) :
    a.reply = none ↔ projectedEater a.runningEater a.chunk < rentExemptMinLamports := by
  rcases h with ⟨hnone, hlow⟩ | ⟨hhigh, hreply⟩
  · exact iff_of_true hnone hlow
  · apply iff_of_false
    · rw [hreply]
      exact Option.some_ne_none _
    · exact UInt64.not_lt.2 hhigh

/-- The first chunk of the loop: what is sent is what the guard lets through, and a chunk that is
not accepted leaves the balance as it is. -/
theorem sweepAttempts_guarded (env : Env) (eater : SigningKey) (blockhash : Bytes 32)
    (runningEater : UInt64) (t : Nat) (part : List (Sender × Nat))
    (parts : List (List (Sender × Nat))) :
    ∃ a : Attempt, a.members = part ∧ a.runningEater = runningEater ∧
      (a.reply ≠ none ↔ leavesRent runningEater part = true) ∧
      (a.after = runningEater ∨
        leavesRent runningEater part = true ∧ rentExemptMinLamports ≤ a.after) ∧
      sweepAttempts env eater blockhash runningEater t (part :: parts) =
        a :: sweepAttempts env eater blockhash a.after (t + submitted [a]) parts := by
  obtain ⟨a, rfl, rfl, hdecided, hcons⟩ :=
    sweepAttempts_cons env eater blockhash runningEater t part parts
  refine ⟨a, rfl, rfl, ?_, ?_, hcons⟩
  · rw [ne_eq, hdecided.reply_eq_none_iff, UInt64.not_lt, leavesRent, decide_eq_true_iff]
    rfl
  · rw [Attempt.after]
    split
    · rename_i haccepted
      have hrent := hdecided.leaves_rent haccepted
      exact .inr ⟨decide_eq_true hrent, hrent⟩
    · exact .inl rfl

/-- The first chunk that the guard lets through at the balance of the loop is sent at it. -/
theorem exists_first_sent {parts : List (List (Sender × Nat))}
    (h : parts.find? (leavesRent runningEater) = some members) :
    ∃ a ∈ sweepAttempts env eater blockhash runningEater t parts, a.members = members ∧
      a.runningEater = runningEater ∧ a.reply ≠ none := by
  induction parts generalizing t with
  | nil => cases h
  | cons part parts ih =>
    obtain ⟨a, hmembers, hrunning, hreply, hafter, hcons⟩ :=
      sweepAttempts_guarded env eater blockhash runningEater t part parts
    rw [hcons]
    rw [List.find?_cons] at h
    split at h
    · rename_i hthrough
      obtain rfl := Option.some.inj h
      exact ⟨a, List.mem_cons_self, hmembers, hrunning, hreply.2 hthrough⟩
    · rename_i hstopped
      have hsame : a.after = runningEater := by
        rcases hafter with hsame | ⟨hthrough, -⟩
        · exact hsame
        · cases hstopped.symm.trans hthrough
      rw [hsame]
      obtain ⟨b, hb, hfirst⟩ := ih h
      exact ⟨b, List.mem_cons_of_mem a hb, hfirst⟩

/-- If the first chunk to be sent can be paid for, or the eater has its rent, then every one can. -/
theorem payable_of_first {parts : List (List (Sender × Nat))}
    (hsize : ∀ members ∈ parts, members.length ≤ maxChildrenPerSweepTx)
    (horder : parts.Pairwise fun part later => later.length ≤ part.length)
    (hfirst : rentExemptMinLamports ≤ runningEater ∨
      ∀ members, parts.find? (leavesRent runningEater) = some members →
        feeOf members ≤ runningEater.toNat) :
    ∀ a ∈ sweepAttempts env eater blockhash runningEater t parts, a.reply ≠ none → a.Payable := by
  induction parts generalizing runningEater t with
  | nil =>
    intro a ha
    cases ha
  | cons part parts ih =>
    obtain ⟨hpart, hsizes⟩ := List.forall_mem_cons.1 hsize
    obtain ⟨hshorter, horders⟩ := List.pairwise_cons.1 horder
    obtain ⟨a, hmembers, hrunning, hreply, hafter, hcons⟩ :=
      sweepAttempts_guarded env eater blockhash runningEater t part parts
    have hfee (hthrough : leavesRent runningEater part = true) :
        feeOf part ≤ runningEater.toNat := by
      rcases hfirst with hrent | hfirst
      · exact feeOf_le hpart hrent
      · exact hfirst part (List.find?_cons_of_pos hthrough)
    have hlater : rentExemptMinLamports ≤ a.after ∨
        ∀ members, parts.find? (leavesRent a.after) = some members →
          feeOf members ≤ a.after.toNat := by
      rcases hafter with hsame | ⟨-, hrent⟩
      · rw [hsame]
        rcases hfirst with hrent | hfirst
        · exact .inl hrent
        right
        intro members hfind
        by_cases hthrough : leavesRent runningEater part = true
        · -- a chunk that was refused has been no shorter
          have hle : members.length ≤ part.length := hshorter _ (List.mem_of_find?_eq_some hfind)
          have hpaid := hfee hthrough
          rw [feeOf] at hpaid ⊢
          omega
        · exact hfirst members ((List.find?_cons_of_neg hthrough).trans hfind)
      · exact .inl hrent
    rw [hcons, List.forall_mem_cons]
    constructor
    · intro hsent
      rw [Attempt.Payable, hmembers, hrunning]
      exact hfee (hreply.1 hsent)
    · exact ih hsizes horders hlater

/-- A sweep skips the chunks that would leave the eater below its rent. It can pay for all that it
sends just in case its balance covers the fee of the first chunk that the guard lets through; and
once a chunk has been accepted, it can pay for all that follow. -/
theorem eater_pays_iff (senders : List Sender) (eater : SigningKey) (eaterBalance : UInt64)
    {w : World} (hblockhash : env.latestBlockhash w.tick = .ok blockhash) :
    ∃ attempts results w',
      Sweep.toEater senders eater eaterBalance false env w = (.ok results, w') ∧
      SweepBooks env w senders eater eaterBalance blockhash attempts results w' ∧
      (∀ a ∈ attempts, a.reply = none ↔
        projectedEater a.runningEater a.chunk < rentExemptMinLamports) ∧
      ((∀ a ∈ attempts, a.reply ≠ none → a.Payable) ↔
        ∀ members, (inChunks maxChildrenPerSweepTx (sources eater senders).length
          (sources eater senders)).find? (leavesRent eaterBalance) = some members →
            feeOf members ≤ eaterBalance.toNat) ∧
      ∀ before a rest, attempts = before ++ a :: rest → a.accepted = true →
        ∀ b ∈ rest, b.reply ≠ none → b.Payable := by
  obtain ⟨results, w', hrun, hbooks⟩ := toEater_books senders eater eaterBalance hblockhash
  have hsize : ∀ members ∈ inChunks maxChildrenPerSweepTx (sources eater senders).length
      (sources eater senders), members.length ≤ maxChildrenPerSweepTx :=
    fun members => length_le_of_mem_inChunks
  have horder := pairwise_inChunks maxChildrenPerSweepTx (sources eater senders).length
    (sources eater senders)
  refine ⟨_, results, w', hrun, hbooks, ?_, ?_, ?_⟩
  · intro a ha
    obtain ⟨before, rest, hsplit⟩ := List.append_of_mem ha
    exact (hbooks.decided before a rest hsplit).2.reply_eq_none_iff
  · constructor
    · intro hpays members hfirst
      obtain ⟨a, ha, hmembers, hrunning, hsent⟩ := exists_first_sent hfirst
      have hpaid := hpays a ha hsent
      rwa [Attempt.Payable, hmembers, hrunning] at hpaid
    · intro hfirst
      exact payable_of_first hsize horder (.inr hfirst)
  · intro before a rest hsplit haccepted
    have hrest := sweepAttempts_split (hsplit.trans (List.append_cons before a rest))
    have hsub : (rest.map Attempt.members).Sublist (inChunks maxChildrenPerSweepTx
        (sources eater senders).length (sources eater senders)) := by
      rw [← hbooks.chunks, hsplit, List.map_append, List.map_cons]
      exact (List.sublist_cons_self ..).trans (List.sublist_append_right ..)
    rw [hrest]
    apply payable_of_first (fun members hmem => hsize members (hsub.subset hmem))
      (horder.sublist hsub)
    exact .inl ((hbooks.after hsplit).1 haccepted)

end Loop

theorem sampleSenders_chunks :
    inChunks maxChildrenPerSweepTx
        (@sources sampleSweepSigners (Vector.replicate 32 1) sampleSenders).length
        (@sources sampleSweepSigners (Vector.replicate 32 1) sampleSenders) =
      [sampleSenders.zipIdx] := rfl

theorem eater_pays_iff_sample :
    ∃ (attempts : List Attempt) (results : List SweepResult) (w' : World),
      @Sweep.toEater sampleSweepSigners sampleSenders (Vector.replicate 32 1) 20000 false
        sampleNode (.init FileTree.Tree.empty) = (.ok results, w') ∧
      ∀ a ∈ attempts, a.reply ≠ none → a.Payable := by
  obtain ⟨attempts, results, w', hrun, -, -, hpays, -⟩ :=
    @eater_pays_iff sampleSweepSigners sampleNode (Vector.replicate 32 9) sampleSenders
      (Vector.replicate 32 1) 20000 (.init FileTree.Tree.empty) rfl
  refine ⟨attempts, results, w', hrun, hpays.2 ?_⟩
  intro members hfirst
  rw [sampleSenders_chunks] at hfirst
  obtain rfl := List.mem_singleton.1 (List.mem_of_find?_eq_some hfirst)
  decide

/-- An eater without a lamport sends a sweep all the same. -/
theorem eater_cannot_pay :
    ¬∀ (senders : List Sender) (eater : SigningKey) (eaterBalance : UInt64) (env : Env)
      (w w' : World) (blockhash : Bytes 32) (attempts : List Attempt) (results : List SweepResult),
      @Sweep.toEater sampleSweepSigners senders eater eaterBalance false env w =
        (.ok results, w') →
      @SweepBooks sampleSweepSigners env w senders eater eaterBalance blockhash attempts results
        w' →
      ∀ a ∈ attempts, a.reply ≠ none → a.Payable := by
  intro hall
  obtain ⟨results, w', hrun, hbooks⟩ := @toEater_books sampleSweepSigners (Vector.replicate 32 9)
    sampleSenders (Vector.replicate 32 1) 0 sampleNode (.init FileTree.Tree.empty) rfl
  have hpays := hall _ _ _ _ _ _ _ _ _ hrun hbooks
  rw [sampleSenders_chunks] at hpays
  obtain ⟨a, ha, hmembers, hrunning, hsent⟩ := @exists_first_sent sampleSweepSigners sampleNode
    (Vector.replicate 32 1) (Vector.replicate 32 9) 0 sampleSenders.zipIdx 1
    [sampleSenders.zipIdx] rfl
  have hpaid := hpays a ha hsent
  rw [Attempt.Payable, hmembers, hrunning] at hpaid
  exact absurd hpaid (by decide)

end TokenPumper
