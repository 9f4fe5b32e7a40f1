import TokenPumper.Submitted
import Mathlib.Data.List.FinRange

namespace TokenPumper.Receive
open LittleEndian ByteCursor Machine
set_option autoImplicit true

def maxShredSize : Nat := 1232

def flushEvery : UInt64 := 1024

def batchSize : Nat := 32

/-- The counters that the thread publishes, each in a cell of its own. -/
structure ReceiverStats where
  packets : UInt64
  bytes : UInt64
  recvErrors : UInt64
deriving DecidableEq, Repr

def counters : List (ReceiverStats → UInt64) :=
  [ReceiverStats.packets, ReceiverStats.bytes, ReceiverStats.recvErrors]

inductive Store
  | packets (n : UInt64)
  | bytes (n : UInt64)
  | recvErrors (n : UInt64)

def ReceiverStats.store (stats : ReceiverStats) : Store → ReceiverStats
  | .packets n => { stats with packets := n }
  | .bytes n => { stats with bytes := n }
  | .recvErrors n => { stats with recvErrors := n }

/-- What is stored to publish the counters, in this order. -/
def ReceiverStats.stores (stats : ReceiverStats) : List Store :=
  [.packets stats.packets, .bytes stats.bytes, .recvErrors stats.recvErrors]

inductive ErrorKind
  | wouldBlock
  | timedOut
  | other
deriving DecidableEq, Repr

/-- What `recvmmsg` comes to: never more datagrams than it has been given buffers for. -/
inductive RecvResult
  | received (datagrams : List (List UInt8)) (fits : datagrams.length ≤ batchSize)
  | failed (kind : ErrorKind)

/-- One iteration: the exit flag, the call, and what the handler meets at each datagram. -/
structure Call (β : Type) where
  exit : Bool
  result : RecvResult
  shown : Nat → β

def Call.meets (c : Call β) (packets : List (List UInt8)) : List (List UInt8 × β) :=
  packets.zipIdx.map fun (packet, i) => (packet, c.shown i)

/-- The thread goes on by one iteration, or by one store of a publication that is under way. -/
inductive Move (β : Type)
  | call (c : Call β)
  | store

structure RecvBatch where
  bufs : Vector (Bytes maxShredSize) batchSize
  msgLens : Vector Nat batchSize

def RecvBatch.new : RecvBatch where
  bufs := Vector.replicate batchSize (Vector.replicate maxShredSize 0)
  msgLens := Vector.replicate batchSize 0

/-- The kernel writes over the front of a buffer what fits of a datagram. What an earlier datagram
has left behind it stays. -/
def writeFront (buf : Bytes maxShredSize) (datagram : List UInt8) : Bytes maxShredSize :=
  overwrite buf 0 (datagram.take maxShredSize) (by
    rw [Nat.zero_add]
    exact List.length_take_le _ _)

def RecvBatch.fill (b : RecvBatch) (datagrams : List (List UInt8)) : RecvBatch where
  bufs := Vector.ofFn fun i =>
    (datagrams[i.val]?).elim b.bufs[i] fun d => writeFront b.bufs[i] d
  msgLens := Vector.ofFn fun i =>
    (datagrams[i.val]?).elim b.msgLens[i] fun d => min d.length maxShredSize

/-- `&batch.bufs[i][..pkt_len]`. -/
def RecvBatch.packet (b : RecvBatch) (i : Fin batchSize) : List UInt8 :=
  b.bufs[i].toList.take b.msgLens[i]

def RecvBatch.packets (b : RecvBatch) (n : Nat) (h : n ≤ batchSize) : List (List UInt8) :=
  (List.finRange n).map fun i => b.packet (i.castLE h)

/-- What the loop has between two moves; the handler is a closure with a state. -/
structure RecvLoop (σ : Type) where
  batch : RecvBatch
  handler : σ
  localPkts : UInt64
  localBytes : UInt64
  localErrs : UInt64
  sinceFlush : UInt64
  publishing : List Store
  stats : ReceiverStats

/-- The thread, while it runs, behind the flag with the final stores, and after a panic of the
handler. -/
inductive RecvThread (σ : Type)
  | running (loop : RecvLoop σ)
  | ending (publishing : List Store) (stats : ReceiverStats)
  | gone (stats : ReceiverStats)

namespace RecvLoop

def start (handler : σ) : RecvLoop σ := ⟨.new, handler, 0, 0, 0, 0, [], ⟨0, 0, 0⟩⟩

def locals (l : RecvLoop σ) : ReceiverStats := ⟨l.localPkts, l.localBytes, l.localErrs⟩

/-- The stores that are left are made before the next call. -/
def settle (l : RecvLoop σ) : RecvLoop σ :=
  { l with publishing := [], stats := l.publishing.foldl ReceiverStats.store l.stats }

/-- Every `FLUSH_EVERY` packets the counters are published. -/
def flush (l : RecvLoop σ) : RecvLoop σ :=
  if flushEvery ≤ l.sinceFlush then { l with publishing := l.locals.stores, sinceFlush := 0 }
  else l

def count (l : RecvLoop σ) (packets : List (List UInt8)) : RecvLoop σ :=
  { l with
    localPkts := packets.foldl (fun n _ => n + 1) l.localPkts
    localBytes := packets.foldl (fun n p => n + UInt64.ofNat p.length) l.localBytes
    sinceFlush := l.sinceFlush + UInt64.ofNat packets.length }

end RecvLoop

/-- One iteration of `recv_loop`, with what the handler puts out in it. -/
def iterate (handle : σ → List UInt8 × β → Option (σ × List ο)) (l : RecvLoop σ) (c : Call β) :
    RecvThread σ × List ο :=
  if c.exit then (.ending l.locals.stores l.stats, [])
  else match c.result with
    | .failed .other => (.running { l with localErrs := l.localErrs + 1 }, [])
    | .failed _ => (.running l, [])
    | .received datagrams fits =>
      let batch := l.batch.fill datagrams
      let packets := batch.packets datagrams.length fits
      let out := (outputs handle l.handler (c.meets packets)).flatten
      match run (after handle) l.handler (c.meets packets) with
      | none => (.gone l.stats, out)
      | some handler => (.running ({ l with batch, handler }.count packets).flush, out)

def step (handle : σ → List UInt8 × β → Option (σ × List ο)) :
    RecvThread σ → Move β → Option (RecvThread σ × List ο)
  | .running l, .call c => some (iterate handle l.settle c)
  | .running l, .store =>
    match l.publishing with
    | [] => some (.running l, [])
    | s :: publishing => some (.running { l with publishing, stats := l.stats.store s }, [])
  | .ending publishing stats, .store =>
    match publishing with
    | [] => some (.ending [] stats, [])
    | s :: publishing => some (.ending publishing (stats.store s), [])
  | .gone stats, .store => some (.gone stats, [])
  | _, .call _ => none

/-- What has come in before the flag is seen, with what the handler meets at it. -/
def datagrams : List (Move β) → List (List UInt8 × β)
  | [] => []
  | .store :: moves => datagrams moves
  | .call c :: moves =>
    if c.exit then []
    else match c.result with
      | .received ds _ => c.meets ds ++ datagrams moves
      | .failed _ => datagrams moves

section Loop
variable {handle : σ → List UInt8 × β → Option (σ × List ο)}

end Loop

/-- The errors that are counted before the flag is seen; a timeout is none. -/
def errors : List (Move β) → Nat
  | [] => 0
  | .store :: moves => errors moves
  | .call c :: moves =>
    if c.exit then 0
    else match c.result with
      | .failed .other => errors moves + 1
      | _ => errors moves

def totals (moves : List (Move β)) : ReceiverStats where
  packets := UInt64.ofNat (datagrams moves).length
  bytes := UInt64.ofNat ((datagrams moves).map fun d => (d.1.take maxShredSize).length).sum
  recvErrors := UInt64.ofNat (errors moves)

/-- Each cell on its own has what its counter was fewer than so many datagrams ago. -/
def Shown (lag : Nat) (moves : List (Move β)) (stats : ReceiverStats) : Prop :=
  ∀ counter ∈ counters, ∃ before, before <+: moves ∧ counter stats = counter (totals before) ∧
    (datagrams moves).length < (datagrams before).length + lag

def Unflagged (moves : List (Move β)) : Prop := ∀ c, .call c ∈ moves → c.exit = false

/-- What the thread has counted, and what its last publication comes to. -/
structure Counted (past : List (Move β)) (l : RecvLoop σ) : Prop where
  unflagged : Unflagged past
  locals : l.locals = totals past
  lag : l.sinceFlush < flushEvery
  published : ∃ before, before <+: past ∧ l.publishing <:+ (totals before).stores ∧
    l.settle.stats = totals before ∧
    (datagrams past).length = (datagrams before).length + l.sinceFlush.toNat
  shown : Shown (flushEvery.toNat + batchSize) past l.stats

section Moves
variable {past more : List (Move β)}

theorem datagrams_append (h : Unflagged past) :
    datagrams (past ++ more) = datagrams past ++ datagrams more := by
  induction past with
  | nil => rfl
  | cons m past ih =>
    have hrest := ih fun c hc => h c (List.mem_cons_of_mem _ hc)
    cases m with
    | store => exact hrest
    | call c =>
      rw [List.cons_append, datagrams, datagrams, h c List.mem_cons_self]
      cases c.result with
      | received ds fits =>
        simp only [Bool.false_eq_true, ↓reduceIte]
        rw [hrest, List.append_assoc]
      | failed kind => exact hrest

theorem errors_append (h : Unflagged past) : errors (past ++ more) = errors past + errors more := by
  induction past with
  | nil => exact (Nat.zero_add _).symm
  | cons m past ih =>
    have hrest := ih fun c hc => h c (List.mem_cons_of_mem _ hc)
    cases m with
    | store => exact hrest
    | call c =>
      rw [List.cons_append, errors, errors, h c List.mem_cons_self]
      cases c.result with
      | received ds fits => exact hrest
      | failed kind =>
        cases kind with
        | other =>
          simp only [Bool.false_eq_true, ↓reduceIte]
          omega
        | wouldBlock => exact hrest
        | timedOut => exact hrest

theorem datagrams_received {c : Call β} (hexit : c.exit = false)
    (hresult : c.result = .received ds fits) : datagrams [.call c] = c.meets ds := by
  rw [datagrams, hexit, hresult, if_neg Bool.false_ne_true]
  exact List.append_nil _

theorem datagrams_failed {c : Call β} (hexit : c.exit = false) (hresult : c.result = .failed kind) :
    datagrams [.call c] = [] := by
  rw [datagrams, hexit, hresult, if_neg Bool.false_ne_true]
  rfl

theorem Unflagged.concat (h : Unflagged past) (hm : ∀ c, m = .call c → c.exit = false) :
    Unflagged (past ++ [m]) := by
  intro c hc
  rcases List.mem_append.1 hc with hc | hc
  · exact h c hc
  · exact hm c (List.mem_singleton.1 hc).symm

theorem totals_concat (h : Unflagged past) (hdatagrams : datagrams [m] = [])
    (herrors : errors [m] = 0) : totals (past ++ [m]) = totals past := by
  rw [totals, totals, datagrams_append h, errors_append h, hdatagrams, herrors, List.append_nil,
    Nat.add_zero]

theorem Shown.concat (hshown : Shown lag past stats) (h : Unflagged past)
    (hdatagrams : (datagrams [m]).length ≤ n) : Shown (lag + n) (past ++ [m]) stats := by
  intro counter hcounter
  obtain ⟨before, hstem, hvalue, hlength⟩ := hshown counter hcounter
  refine ⟨before, hstem.trans (List.prefix_append _ _), hvalue, ?_⟩
  rw [datagrams_append h, List.length_append]
  omega

theorem Shown.mono (h : Shown lag past stats) (hle : lag ≤ lag') : Shown lag' past stats := by
  intro counter hcounter
  obtain ⟨before, hstem, hvalue, hlength⟩ := h counter hcounter
  exact ⟨before, hstem, hvalue, Nat.lt_of_lt_of_le hlength (Nat.add_le_add_left hle _)⟩

/-- A store of a publication leaves a cell alone or puts the published counter there. -/
theorem store_published {stats published : ReceiverStats} (hs : s ∈ published.stores) :
    ∀ counter ∈ counters, counter (stats.store s) = counter stats ∨
      counter (stats.store s) = counter published := by
  simp only [ReceiverStats.stores, List.mem_cons, List.not_mem_nil, or_false] at hs
  simp only [counters, List.forall_mem_cons, List.not_mem_nil, false_implies, implies_true,
    and_true]
  rcases hs with rfl | rfl | rfl
  · exact ⟨.inr rfl, .inl rfl, .inl rfl⟩
  · exact ⟨.inl rfl, .inr rfl, .inl rfl⟩
  · exact ⟨.inl rfl, .inl rfl, .inr rfl⟩

end Moves

section Counting
variable {handle : σ → List UInt8 × β → Option (σ × List ο)} {l : RecvLoop σ}
  {past : List (Move β)}

theorem foldl_packets (packets : List α) (n : UInt64) :
    packets.foldl (fun n _ => n + 1) n = n + UInt64.ofNat packets.length := by
  induction packets generalizing n with
  | nil => exact (UInt64.add_zero n).symm
  | cons p packets ih =>
    rw [List.foldl_cons, ih, List.length_cons, UInt64.ofNat_add, UInt64.add_assoc,
      UInt64.add_comm 1]
    rfl

theorem foldl_bytes (packets : List (List UInt8)) (n : UInt64) :
    packets.foldl (fun n p => n + UInt64.ofNat p.length) n =
      n + UInt64.ofNat (packets.map List.length).sum := by
  induction packets generalizing n with
  | nil => exact (UInt64.add_zero n).symm
  | cons p packets ih =>
    rw [List.foldl_cons, ih, List.map_cons, List.sum_cons, UInt64.ofNat_add, UInt64.add_assoc]

theorem Counted.settled (h : Counted past l) :
    Counted past l.settle ∧ Shown flushEvery.toNat past l.settle.stats := by
  obtain ⟨before, hstem, -, hstats, hlength⟩ := h.published
  have hlag : l.sinceFlush.toNat < flushEvery.toNat := UInt64.lt_iff_toNat_lt.1 h.lag
  have hshown : Shown flushEvery.toNat past l.settle.stats := by
    intro counter _
    rw [hstats]
    exact ⟨before, hstem, rfl, by omega⟩
  exact ⟨⟨h.unflagged, h.locals, h.lag, ⟨before, hstem, List.nil_suffix, hstats, hlength⟩,
    hshown.mono (Nat.le_add_right _ _)⟩, hshown⟩

/-- While nothing is being published the cells are as the last publication left them. -/
theorem Counted.fresh (h : Counted past l) (hnone : l.publishing = []) :
    Shown flushEvery.toNat past l.stats := by
  have hsettled := h.settled.2
  rwa [RecvLoop.settle, hnone] at hsettled

theorem Counted.concat (h : Counted past l) (hm : ∀ c, m = .call c → c.exit = false)
    (hdatagrams : datagrams [m] = []) (herrors : errors [m] = 0) : Counted (past ++ [m]) l := by
  obtain ⟨before, hstem, hpublishing, hstats, hlength⟩ := h.published
  refine ⟨h.unflagged.concat hm, ?_, h.lag, ⟨before, hstem.trans (List.prefix_append _ _),
    hpublishing, hstats, ?_⟩, ?_⟩
  · rw [totals_concat h.unflagged hdatagrams herrors]
    exact h.locals
  · rwa [datagrams_append h.unflagged, hdatagrams, List.append_nil]
  · exact h.shown.concat h.unflagged (n := 0) (by rw [hdatagrams]; exact Nat.le_refl _)

theorem Counted.store (h : Counted past l) (hpublishing : l.publishing = s :: publishing) :
    Counted past { l with publishing, stats := l.stats.store s } := by
  obtain ⟨before, hstem, hsuffix, hstats, hlength⟩ := h.published
  have hsettled := h.settled.2
  rw [hpublishing] at hsuffix
  refine ⟨h.unflagged, h.locals, h.lag, ⟨before, hstem, ?_, ?_, hlength⟩, ?_⟩
  · exact (List.suffix_cons s publishing).trans hsuffix
  · rw [RecvLoop.settle, hpublishing] at hstats
    exact hstats
  · intro counter hcounter
    rcases store_published (hsuffix.subset List.mem_cons_self) counter hcounter with heq | heq
    · rw [heq]
      exact h.shown counter hcounter
    · rw [heq, ← hstats]
      exact hsettled.mono (Nat.le_add_right _ _) counter hcounter

theorem toNat_sinceFlush (h : l.sinceFlush < flushEvery) (ds : List (List UInt8))
    (hfits : ds.length ≤ batchSize) :
    (l.count (ds.map (List.take maxShredSize))).sinceFlush.toNat =
      l.sinceFlush.toNat + ds.length := by
  have hlag : l.sinceFlush.toNat < 1024 := UInt64.lt_iff_toNat_lt.1 h
  have hbatch : ds.length ≤ 32 := hfits
  change (l.sinceFlush + UInt64.ofNat (ds.map (List.take maxShredSize)).length).toNat = _
  rw [List.length_map, UInt64.toNat_add, UInt64.toNat_ofNat']
  omega

theorem length_meets (c : Call β) (ds : List (List UInt8)) : (c.meets ds).length = ds.length := by
  rw [Call.meets, List.length_map, List.length_zipIdx]

theorem locals_count (h : l.locals = totals past) (hunflagged : Unflagged past) (c : Call β)
    (hexit : c.exit = false) (hresult : c.result = .received ds fits) :
    (l.count (ds.map (List.take maxShredSize))).locals = totals (past ++ [.call c]) := by
  obtain ⟨hpackets, hbytes, herrs⟩ := ReceiverStats.mk.inj h
  have hdatagrams := datagrams_received hexit hresult
  have herrors : errors [.call c] = 0 := by
    rw [errors, hexit, hresult, if_neg Bool.false_ne_true]
    rfl
  have hsum : ((c.meets ds).map fun d => (d.1.take maxShredSize).length) =
      (ds.map (List.take maxShredSize)).map List.length := by
    rw [Call.meets, List.map_map, List.map_map]
    calc ds.zipIdx.map (fun d => (d.1.take maxShredSize).length)
        = (ds.zipIdx.map Prod.fst).map fun d => (d.take maxShredSize).length := by
          rw [List.map_map]
          rfl
      _ = ds.map fun d => (d.take maxShredSize).length := by rw [List.zipIdx_map_fst]
  simp only [RecvLoop.locals, RecvLoop.count, foldl_packets, foldl_bytes, hpackets, hbytes, herrs,
    totals, datagrams_append hunflagged, errors_append hunflagged, hdatagrams, herrors,
    List.length_append, List.map_append, List.sum_append, hsum, length_meets, List.length_map,
    UInt64.ofNat_add, Nat.add_zero]

theorem settle_stores (l : RecvLoop σ) (n : UInt64) :
    { l with publishing := l.locals.stores, sinceFlush := n }.settle.stats = l.locals := rfl

theorem Counted.received (h : Counted past l) (hnone : l.publishing = []) (c : Call β)
    (hexit : c.exit = false) (hresult : c.result = .received ds fits) :
    Counted (past ++ [.call c]) (l.count (ds.map (List.take maxShredSize))).flush := by
  have hlocals := locals_count h.locals h.unflagged c hexit hresult
  have hsince := toNat_sinceFlush h.lag ds fits
  have hunflagged : Unflagged (past ++ [.call c]) :=
    h.unflagged.concat fun c' hc' => (Move.call.inj hc') ▸ hexit
  have hdatagrams := datagrams_received hexit hresult
  have hshown : Shown (flushEvery.toNat + batchSize) (past ++ [.call c]) l.stats :=
    (h.fresh hnone).concat h.unflagged (by rw [hdatagrams, length_meets]; exact fits)
  rw [RecvLoop.flush]
  split
  · refine ⟨hunflagged, hlocals, ?_, ⟨past ++ [.call c], List.prefix_rfl, ?_,
      (settle_stores _ 0).trans hlocals, rfl⟩, hshown⟩
    · change (0 : UInt64) < flushEvery
      decide
    · rw [hlocals]
  · rename_i hflush
    obtain ⟨before, hstem, -, hstats, hlength⟩ := h.published
    refine ⟨hunflagged, hlocals, UInt64.not_le.1 hflush, ⟨before,
      hstem.trans (List.prefix_append _ _), ?_, hstats, ?_⟩, hshown⟩
    · change l.publishing <:+ _
      rw [hnone]
      exact List.nil_suffix
    · rw [datagrams_append h.unflagged, List.length_append, hdatagrams, length_meets, hlength,
        hsince, Nat.add_assoc]

theorem Counted.failed (h : Counted past l) (c : Call β) (hexit : c.exit = false)
    (hresult : c.result = .failed .other) :
    Counted (past ++ [.call c]) { l with localErrs := l.localErrs + 1 } := by
  have hdatagrams := datagrams_failed hexit hresult
  have herrors : errors [.call c] = 1 := by
    rw [errors, hexit, hresult, if_neg Bool.false_ne_true]
    rfl
  obtain ⟨hpackets, hbytes, herrs⟩ := ReceiverStats.mk.inj h.locals
  obtain ⟨before, hstem, hpublishing, hstats, hlength⟩ := h.published
  refine ⟨h.unflagged.concat fun c' hc' => (Move.call.inj hc') ▸ hexit, ?_, h.lag, ⟨before,
    hstem.trans (List.prefix_append _ _), hpublishing, hstats, ?_⟩, ?_⟩
  · simp only [RecvLoop.locals, hpackets, hbytes, herrs, totals, datagrams_append h.unflagged,
      errors_append h.unflagged, hdatagrams, herrors, List.append_nil, UInt64.ofNat_add]
    rfl
  · rwa [datagrams_append h.unflagged, hdatagrams, List.append_nil]
  · exact h.shown.concat h.unflagged (n := 0) (by rw [hdatagrams]; exact Nat.le_refl _)

theorem Counted.idle (h : Counted past l) (c : Call β) (hexit : c.exit = false)
    (hresult : c.result = .failed kind) (hkind : kind ≠ .other) :
    Counted (past ++ [.call c]) l := by
  refine h.concat (fun c' hc' => (Move.call.inj hc') ▸ hexit) (datagrams_failed hexit hresult) ?_
  rw [errors, hexit, hresult, if_neg Bool.false_ne_true]
  cases kind with
  | other => exact absurd rfl hkind
  | wouldBlock => rfl
  | timedOut => rfl

theorem Counted.batch (h : Counted past l) (batch : RecvBatch) (handler : σ) :
    Counted past { l with batch, handler } :=
  ⟨h.unflagged, h.locals, h.lag, h.published, h.shown⟩

theorem datagrams_store (past : List (Move β)) : datagrams (past ++ [.store]) = datagrams past := by
  induction past with
  | nil => rfl
  | cons m past ih =>
    cases m with
    | store => exact ih
    | call c => rw [List.cons_append, datagrams, datagrams, ih]

theorem Shown.store (h : Shown lag past stats) : Shown lag (past ++ [.store]) stats := by
  intro counter hcounter
  obtain ⟨before, hstem, hvalue, hlength⟩ := h counter hcounter
  exact ⟨before, hstem.trans (List.prefix_append _ _), hvalue, by rwa [datagrams_store]⟩

/-- What the thread has counted, and what is in the cells. -/
def Published (moves : List (Move β)) : RecvThread σ → Prop
  | .running l => l.locals = totals moves ∧ Shown (flushEvery.toNat + batchSize) moves l.stats ∧
    (l.publishing = [] → Shown flushEvery.toNat moves l.stats)
  | .ending publishing stats => Shown flushEvery.toNat moves stats ∧
    (publishing = [] → stats = totals moves)
  | .gone stats => Shown (flushEvery.toNat + batchSize) moves stats

end Counting

section Closure
variable [Ed25519]

end Closure

end TokenPumper.Receive
