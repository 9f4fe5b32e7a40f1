import TokenPumper.Lib.ChunkReader
import TokenPumper.Lib.LittleEndian
import TokenPumper.Lib.Machine

namespace TokenPumper.Node1
open LittleEndian ChunkReader Machine
set_option autoImplicit true

def toU16Be (bs : List UInt8) : UInt16 := UInt16.ofNat (decode bs.reverse)

def toU32Be (bs : List UInt8) : UInt32 := UInt32.ofNat (decode bs.reverse)

/-- The frame that the server's documentation gives for a response. -/
def frame (status : UInt16) (msg : List UInt8) : List UInt8 :=
  (encode 2 status.toNat).reverse ++ (encode 4 msg.length).reverse ++ msg

abbrev Response := UInt16 × List UInt8

/-- The message is left as its bytes. -/
def readResponse : Reader UInt8 String Response :=
  .exact 6 "tx read header" fun header =>
    let status := toU16Be (header.take 2)
    let msgLen := (toU32Be (header.drop 2)).toNat
    if 0 < msgLen then .exact msgLen "tx read msg" fun msg => .done (status, msg)
    else .done (status, [])

def readReply : Reader UInt8 String Unit :=
  .toEnd 8 "auth read reply" fun reply =>
    match reply.head? with
    | some 0 => .done ()
    | some code => .fail s!"node1 auth rejected, reply byte = {code}"
    | none => .fail "node1 auth: empty server reply"

/-- The texts of the failures that are not the reader's. -/
structure Contexts where
  openBi : String
  writeAll : String
  timedOut : String

/-- How far the client has come with a stream. -/
inductive Phase (α : Type)
  | opening
  | writing (rest : List UInt8)
  | reading (reader : Reader UInt8 String α)
  | ended (outcome : Except String α)

/-- A request and its answer on a stream of their own. What the client has not read yet is kept by
the connection. -/
structure Exchange (α : Type) where
  request : List UInt8
  phase : Phase α
  written : List UInt8
  finished : Bool
  received : List UInt8
  unread : List UInt8
  fin : Bool

inductive StreamEvent
  | opened
  | openFailed
  | accepts (n : Nat)
  | writeFailed
  | chunk (bytes : List UInt8)
  | fin
  | readFailed
  | timedOut

def StreamEvent.opens : StreamEvent → Bool
  | .opened => true
  | _ => false

def Exchange.start (request : List UInt8) : Exchange α :=
  ⟨request, .opening, [], false, [], [], false⟩

namespace Exchange

def pump (x : Exchange α) (reader : Reader UInt8 String α) : Exchange α :=
  let (reader', unread) := reader.poll x.unread
  let phase :=
    match reader'.result with
    | some outcome => .ended outcome
    | none => if x.fin then .ended (reader'.finish unread) else .reading reader'
  { x with phase, unread }

/-- With nothing left to write, `finish` is called and the answer is read. -/
def write (x : Exchange α) (reader : Reader UInt8 String α) (rest : List UInt8) : Exchange α :=
  if rest.isEmpty then { x with finished := true }.pump reader
  else { x with phase := .writing rest }

/-- A read that fails, fails like one that comes to the end too early. -/
def broken : Reader UInt8 String α → Except String α
  | .done a => .ok a
  | .fail e => .error e
  | .exact _ early _ => .error early
  | .toEnd _ tooLong _ => .error tooLong

def step (contexts : Contexts) (reader : Reader UInt8 String α) (x : Exchange α) :
    StreamEvent → Option (Exchange α)
  | .opened =>
    match x.phase with
    | .opening => some (x.write reader x.request)
    | _ => none
  | .openFailed =>
    match x.phase with
    | .opening => some { x with phase := .ended (.error contexts.openBi) }
    | _ => none
  | .accepts n =>
    match x.phase with
    | .writing rest =>
      some ({ x with written := x.written ++ rest.take n }.write reader (rest.drop n))
    | _ => none
  | .writeFailed =>
    match x.phase with
    | .writing _ => some { x with phase := .ended (.error contexts.writeAll) }
    | _ => none
  | .chunk bytes =>
    if x.fin then none
    else
      let x := { x with received := x.received ++ bytes, unread := x.unread ++ bytes }
      match x.phase with
      | .writing _ => some x
      | .reading reader => some (x.pump reader)
      | _ => none
  | .fin =>
    let x := { x with fin := true }
    match x.phase with
    | .writing _ => some x
    | .reading reader => some (x.pump reader)
    | _ => none
  | .readFailed =>
    match x.phase with
    | .reading reader => some { x with phase := .ended (broken reader) }
    | _ => none
  | .timedOut =>
    match x.phase with
    | .ended _ => none
    | _ => some { x with phase := .ended (.error contexts.timedOut) }

/-- Without a stream nothing is written or received, and there is no answer. -/
structure Untouched (x : Exchange α) : Prop where
  written : x.written = []
  finished : x.finished = false
  received : x.received = []
  phase : x.phase = .opening ∨ ∃ e, x.phase = .ended (.error e)

def Sound (reader : Reader UInt8 String α) (x : Exchange α) : Prop :=
  match x.phase with
  | .opening => x.written = [] ∧ x.finished = false ∧ x.unread = x.received
  | .writing rest => x.written ++ rest = x.request ∧ x.finished = false ∧ x.unread = x.received
  | .reading reader' => x.written = x.request ∧ x.finished = true ∧ x.fin = false ∧
    reader.poll x.received = (reader', x.unread) ∧ reader'.result = none
  | .ended outcome => x.written <+: x.request ∧ (x.finished = true → x.written = x.request) ∧
    ∀ a, outcome = .ok a → x.finished = true ∧ reader.finish x.received = .ok a

variable {reader : Reader UInt8 String α} {x x' : Exchange α}

theorem sound_start (request : List UInt8) : Sound reader (.start request) := ⟨rfl, rfl, rfl⟩

theorem pump_sound (hwritten : x.written = x.request) (hfinished : x.finished = true)
    (hpoll : r.poll x.unread = reader.poll x.received) : Sound reader (x.pump r) := by
  have hfinish := reader.finish_poll x.received
  rw [pump, hpoll]
  generalize hres : reader.poll x.received = res at hfinish
  obtain ⟨reader', unread⟩ := res
  dsimp only at hfinish ⊢
  cases hresult : reader'.result with
  | some outcome =>
    have hout : reader.finish x.received = outcome := by
      apply Reader.finish_of_result
      rw [hres]
      exact hresult
    refine ⟨hwritten ▸ List.prefix_rfl, fun _ => hwritten, fun a ha => ⟨hfinished, ?_⟩⟩
    exact hout.trans ha
  | none =>
    dsimp only
    cases hfin : x.fin with
    | true =>
      refine ⟨hwritten ▸ List.prefix_rfl, fun _ => hwritten, fun a ha => ⟨hfinished, ?_⟩⟩
      exact hfinish.symm.trans ha
    | false => exact ⟨hwritten, hfinished, rfl, hres, hresult⟩

theorem write_sound (hrest : x.written ++ rest = x.request) (hfinished : x.finished = false)
    (hunread : x.unread = x.received) : Sound reader (x.write reader rest) := by
  rw [write]
  split
  · rename_i hempty
    rw [List.isEmpty_iff.1 hempty, List.append_nil] at hrest
    exact pump_sound hrest rfl (congrArg reader.poll hunread)
  · exact ⟨hrest, hfinished, hunread⟩

theorem Sound.written (h : Sound reader x) :
    x.written <+: x.request ∧ (x.finished = true → x.written = x.request) := by
  rw [Sound] at h
  split at h
  · obtain ⟨hwritten, hfinished, -⟩ := h
    simp [hwritten, hfinished]
  · obtain ⟨hrest, hfinished, -⟩ := h
    simp [← hrest, hfinished]
  · simp [h.1]
  · exact ⟨h.1, h.2.1⟩

theorem Sound.failed (h : Sound reader x) (e : String) :
    Sound reader { x with phase := .ended (.error e) } := by
  obtain ⟨hstem, hall⟩ := h.written
  exact ⟨hstem, hall, fun a ha => nomatch ha⟩

theorem Sound.kept (h : Sound reader x) (hstep : step contexts reader x e = some x') :
    Sound reader x' := by
  have hsound := h
  rw [Sound] at h
  cases e with
  | opened =>
    simp only [step] at hstep
    split at hstep
    · rename_i hphase
      rw [hphase] at h
      obtain ⟨hwritten, hfinished, hunread⟩ := h
      obtain rfl := Option.some.inj hstep
      exact write_sound (by rw [hwritten, List.nil_append]) hfinished hunread
    · cases hstep
  | openFailed =>
    simp only [step] at hstep
    split at hstep
    · rename_i hphase
      obtain rfl := Option.some.inj hstep
      exact hsound.failed _
    · cases hstep
  | accepts n =>
    simp only [step] at hstep
    split at hstep
    · rename_i rest hphase
      rw [hphase] at h
      obtain ⟨hrest, hfinished, hunread⟩ := h
      obtain rfl := Option.some.inj hstep
      refine write_sound ?_ hfinished hunread
      change x.written ++ rest.take n ++ rest.drop n = x.request
      rw [List.append_assoc, List.take_append_drop, hrest]
    · cases hstep
  | writeFailed =>
    simp only [step] at hstep
    split at hstep
    · rename_i hphase
      obtain rfl := Option.some.inj hstep
      exact hsound.failed _
    · cases hstep
  | chunk bytes =>
    simp only [step] at hstep
    split at hstep
    · cases hstep
    · rename_i hfin
      split at hstep
      · rename_i rest hphase
        have hphase' : x.phase = .writing rest := hphase
        rw [hphase'] at h
        obtain ⟨hrest, hfinished, hunread⟩ := h
        obtain rfl := Option.some.inj hstep
        rw [Sound, hphase, hunread]
        exact ⟨hrest, hfinished, rfl⟩
      · rename_i reader' hphase
        have hphase' : x.phase = .reading reader' := hphase
        rw [hphase'] at h
        obtain ⟨hwritten, hfinished, -, hpoll, -⟩ := h
        obtain rfl := Option.some.inj hstep
        have hmore := reader.poll_append x.received bytes
        rw [hpoll] at hmore
        exact pump_sound hwritten hfinished hmore
      · cases hstep
  | fin =>
    simp only [step] at hstep
    split at hstep
    · rename_i rest hphase
      have hphase' : x.phase = .writing rest := hphase
      rw [hphase'] at h
      obtain rfl := Option.some.inj hstep
      rw [Sound, hphase]
      exact h
    · rename_i reader' hphase
      have hphase' : x.phase = .reading reader' := hphase
      rw [hphase'] at h
      obtain ⟨hwritten, hfinished, -, hpoll, -⟩ := h
      obtain rfl := Option.some.inj hstep
      have hmore := reader.poll_append x.received []
      rw [hpoll, List.append_nil, List.append_nil] at hmore
      exact pump_sound hwritten hfinished hmore
    · cases hstep
  | readFailed =>
    simp only [step] at hstep
    split at hstep
    · rename_i reader' hphase
      rw [hphase] at h
      obtain ⟨-, -, -, -, hresult⟩ := h
      obtain rfl := Option.some.inj hstep
      cases reader' with
      | done a => cases hresult
      | fail e => cases hresult
      | exact n early k => exact hsound.failed _
      | toEnd limit tooLong k => exact hsound.failed _
    · cases hstep
  | timedOut =>
    simp only [step] at hstep
    split at hstep
    · cases hstep
    · rename_i hopen
      obtain rfl := Option.some.inj hstep
      exact hsound.failed _

theorem step_ended (h : x.phase = .ended outcome) : step contexts reader x e = none := by
  cases e with
  | chunk bytes =>
    simp only [step, h]
    split <;> rfl
  | _ => simp only [step, h]

theorem write_request (x : Exchange α) (r : Reader UInt8 String α) (rest : List UInt8) :
    (x.write r rest).request = x.request := by
  rw [write]
  split <;> rfl

theorem step_request (h : step contexts reader x e = some x') : x'.request = x.request := by
  cases e with
  | chunk bytes =>
    simp only [step] at h
    split at h
    · cases h
    · split at h
      · exact Option.some.inj h ▸ rfl
      · exact Option.some.inj h ▸ rfl
      · cases h
  | opened =>
    simp only [step] at h
    split at h
    · exact Option.some.inj h ▸ write_request x reader x.request
    · cases h
  | accepts n =>
    simp only [step] at h
    split at h
    · exact Option.some.inj h ▸ write_request _ reader _
    · cases h
  | _ =>
    simp only [step] at h
    split at h
    all_goals first
      | exact Option.some.inj h ▸ rfl
      | cases h

theorem pump_phase (x : Exchange α) (r : Reader UInt8 String α) : (x.pump r).phase ≠ .opening := by
  rw [pump]
  generalize r.poll x.unread = res
  obtain ⟨reader', unread⟩ := res
  dsimp only
  split
  · nofun
  · split <;> nofun

theorem write_phase (x : Exchange α) (r : Reader UInt8 String α) (rest : List UInt8) :
    (x.write r rest).phase ≠ .opening := by
  rw [write]
  split
  · exact pump_phase _ r
  · nofun

theorem step_phase (h : step contexts reader x e = some x') : x'.phase ≠ .opening := by
  cases e with
  | opened =>
    simp only [step] at h
    split at h
    · exact Option.some.inj h ▸ write_phase x reader x.request
    · cases h
  | accepts n =>
    simp only [step] at h
    split at h
    · exact Option.some.inj h ▸ write_phase _ reader _
    · cases h
  | chunk bytes =>
    simp only [step] at h
    split at h
    · cases h
    · split at h
      · rename_i hphase
        obtain rfl := Option.some.inj h
        exact fun hopening => nomatch hphase.symm.trans hopening
      · exact Option.some.inj h ▸ pump_phase _ _
      · cases h
  | fin =>
    simp only [step] at h
    split at h
    · rename_i hphase
      obtain rfl := Option.some.inj h
      exact fun hopening => nomatch hphase.symm.trans hopening
    · exact Option.some.inj h ▸ pump_phase _ _
    · cases h
  | _ =>
    simp only [step] at h
    split at h
    all_goals first
      | exact Option.some.inj h ▸ nofun
      | cases h

theorem opening_of_opened (h : step contexts reader x .opened = some x') : x.phase = .opening := by
  simp only [step] at h
  split at h
  · assumption
  · cases h

theorem untouched_start (request : List UInt8) : (start request : Exchange α).Untouched :=
  ⟨rfl, rfl, rfl, .inl rfl⟩

theorem Untouched.kept (h : x.Untouched) (he : e.opens = false)
    (hstep : step contexts reader x e = some x') : x'.Untouched := by
  obtain ⟨hwritten, hfinished, hreceived, hphase⟩ := h
  rcases hphase with hphase | ⟨message, hphase⟩
  · cases e with
    | opened => cases he
    | openFailed =>
      simp only [step, hphase] at hstep
      exact Option.some.inj hstep ▸ ⟨hwritten, hfinished, hreceived, .inr ⟨_, rfl⟩⟩
    | timedOut =>
      simp only [step, hphase] at hstep
      exact Option.some.inj hstep ▸ ⟨hwritten, hfinished, hreceived, .inr ⟨_, rfl⟩⟩
    | chunk bytes =>
      simp only [step, hphase] at hstep
      split at hstep <;> cases hstep
    | _ =>
      simp only [step, hphase] at hstep
      cases hstep
  · rw [step_ended hphase] at hstep
    cases hstep

end Exchange

section Frame

theorem toU16Be_encode (status : UInt16) : toU16Be (encode 2 status.toNat).reverse = status := by
  rw [toU16Be, List.reverse_reverse, decode_encode status.toNat_lt, UInt16.ofNat_toNat]

theorem toU32Be_encode (h : n < 2 ^ 32) : (toU32Be (encode 4 n).reverse).toNat = n := by
  rw [toU32Be, List.reverse_reverse, decode_encode h, UInt32.toNat_ofNat_of_lt' h]

theorem encode_toU16Be (h : bs.length = 2) : (encode 2 (toU16Be bs).toNat).reverse = bs := by
  have hlen : bs.reverse.length = 2 := by rw [List.length_reverse, h]
  have hlt := decode_lt bs.reverse
  have hback := encode_decode bs.reverse
  rw [hlen] at hlt hback
  rw [toU16Be, UInt16.toNat_ofNat_of_lt' hlt, hback, List.reverse_reverse]

theorem encode_toU32Be (h : bs.length = 4) : (encode 4 (toU32Be bs).toNat).reverse = bs := by
  have hlen : bs.reverse.length = 4 := by rw [List.length_reverse, h]
  have hlt := decode_lt bs.reverse
  have hback := encode_decode bs.reverse
  rw [hlen] at hlt hback
  rw [toU32Be, UInt32.toNat_ofNat_of_lt' hlt, hback, List.reverse_reverse]

/-- A response that the server has written as documented is read as it is, whatever follows. -/
theorem readResponse_of_frame (h : msg.length < 2 ^ 32) (status : UInt16) (rest : List UInt8) :
    (readResponse.poll (frame status msg ++ rest)).1.result = some (.ok (status, msg)) := by
  let header := (encode 2 status.toNat).reverse ++ (encode 4 msg.length).reverse
  have hheader : header.length = 6 := by simp [header]
  have hsplit : frame status msg ++ rest = header ++ (msg ++ rest) := by
    rw [frame, List.append_assoc]
  have hstatus : toU16Be (header.take 2) = status := by
    rw [List.take_left' (by simp), toU16Be_encode]
  have hlen : (toU32Be (header.drop 2)).toNat = msg.length := by
    rw [List.drop_left' (by simp), toU32Be_encode h]
  have hsix : 6 ≤ (header ++ (msg ++ rest)).length := by
    rw [List.length_append, hheader]
    exact Nat.le_add_right _ _
  rw [hsplit, readResponse, Reader.poll, if_pos hsix, List.take_left' hheader,
    List.drop_left' hheader, hstatus, hlen]
  by_cases hmsg : 0 < msg.length
  · have hall : msg.length ≤ (msg ++ rest).length := by
      rw [List.length_append]
      exact Nat.le_add_right _ _
    rw [if_pos hmsg, Reader.poll, if_pos hall, List.take_left]
    rfl
  · rw [if_neg hmsg, List.length_eq_zero_iff.1 (Nat.eq_zero_of_not_pos hmsg)]
    rfl

theorem frame_of_readResponse (h : readResponse.finish bytes = .ok (status, msg)) :
    msg.length < 2 ^ 32 ∧ frame status msg <+: bytes := by
  rw [readResponse, Reader.finish] at h
  split at h
  · rename_i hsix
    have htwo : (bytes.take 6).take 2 = bytes.take 2 := by rw [List.take_take]; rfl
    have hstatus : (encode 2 (toU16Be ((bytes.take 6).take 2)).toNat).reverse = bytes.take 2 := by
      rw [htwo, encode_toU16Be]
      rw [List.length_take]
      omega
    have hlen : (encode 4 (toU32Be ((bytes.take 6).drop 2)).toNat).reverse =
        (bytes.take 6).drop 2 := by
      rw [encode_toU32Be]
      rw [List.length_drop, List.length_take]
      omega
    generalize hstatus' : toU16Be ((bytes.take 6).take 2) = st at h hstatus
    have hbound := (toU32Be ((bytes.take 6).drop 2)).toNat_lt
    generalize (toU32Be ((bytes.take 6).drop 2)).toNat = n at h hlen hbound
    have hbytes : bytes = bytes.take 2 ++ (bytes.take 6).drop 2 ++ bytes.drop 6 := by
      rw [← htwo, List.take_append_drop, List.take_append_drop]
    have hframe (rest : List UInt8) (hrest : rest.length = n) (hstem : rest <+: bytes.drop 6) :
        rest.length < 2 ^ 32 ∧ frame st rest <+: bytes := by
      refine ⟨hrest ▸ hbound, ?_⟩
      rw [frame, hstatus, hrest, hlen]
      have happend := (List.prefix_append_right_inj
        (bytes.take 2 ++ (bytes.take 6).drop 2)).2 hstem
      rwa [← hbytes] at happend
    dsimp only at h
    split at h
    · rw [Reader.finish] at h
      split at h
      · rename_i hall
        obtain ⟨rfl, rfl⟩ := Prod.mk.inj (Except.ok.inj h)
        exact hframe _ (List.length_take_of_le hall) (List.take_prefix _ _)
      · cases h
    · rename_i hzero
      obtain ⟨rfl, rfl⟩ := Prod.mk.inj (Except.ok.inj h)
      exact hframe [] (Nat.eq_zero_of_not_pos hzero).symm List.nil_prefix
  · cases h

end Frame

/-- The calls, and the owners of the connection's streams in the order in which they were opened:
the authentication, or the call with a number. -/
structure Session where
  auth : Exchange Unit
  sends : List (Exchange Response)
  streams : List (Option Nat)

/-- Something happens on the first stream or on the stream of a transaction, or the worker hands a
transaction to `send_one`. -/
inductive SessionEvent
  | auth (e : StreamEvent)
  | handed (bytes : List UInt8)
  | send (i : Nat) (e : StreamEvent)

def authContexts : Contexts := ⟨"auth open_bi", "auth write_all", "node1 auth timed out after 5s"⟩

def sendContexts : Contexts := ⟨"tx open_bi", "tx write_all", "node1 tx send timed out"⟩

/-- Opening is all that makes a stream. -/
def grow (streams : List (Option Nat)) (owner : Option Nat) (e : StreamEvent) :
    List (Option Nat) :=
  if e.opens then streams ++ [owner] else streams

/-- An exchange and its stream: it has none as long as it has not opened it. -/
structure Carried (streams : List (Option Nat)) (owner : Option Nat) (x : Exchange α) : Prop where
  stream : owner ∈ streams ∨ x.Untouched
  opening : x.phase = .opening → owner ∉ streams

section Streams
variable {streams : List (Option Nat)} {owner other : Option Nat} {reader : Reader UInt8 String α}
  {x x' : Exchange α}

theorem mem_grow : other ∈ grow streams owner e ↔
    other ∈ streams ∨ (e.opens = true ∧ other = owner) := by
  rw [grow]
  split
  · rename_i he
    rw [List.mem_append, List.mem_singleton]
    exact or_congr_right (by simp [he])
  · rename_i he
    simp [he]

theorem Carried.kept (h : Carried streams owner x) (hstep : x.step contexts reader e = some x') :
    Carried (grow streams owner e) owner x' := by
  constructor
  · rcases h.stream with hmem | huntouched
    · exact .inl (mem_grow.2 (.inl hmem))
    · cases he : e.opens with
      | true => exact .inl (mem_grow.2 (.inr ⟨he, rfl⟩))
      | false => exact .inr (huntouched.kept he hstep)
  · exact fun hopening => absurd hopening (Exchange.step_phase hstep)

theorem Carried.aside (h : Carried streams owner x) (hne : owner ≠ other) (e : StreamEvent) :
    Carried (grow streams other e) owner x := by
  have hmem : owner ∈ grow streams other e ↔ owner ∈ streams := by
    rw [mem_grow]
    exact or_iff_left fun heq => hne heq.2
  exact ⟨h.stream.imp_left hmem.2, fun hopening hin => h.opening hopening (hmem.1 hin)⟩

theorem nodup_grow (h : Carried streams owner x) (hstep : x.step contexts reader e = some x')
    (hnodup : streams.Nodup) : (grow streams owner e).Nodup := by
  rw [grow]
  split
  · rename_i he
    cases e with
    | opened =>
      have hnot := h.opening (Exchange.opening_of_opened hstep)
      refine List.nodup_append.2 ⟨hnodup, List.pairwise_singleton _ owner, fun a ha b hb => ?_⟩
      obtain rfl := List.mem_singleton.1 hb
      exact fun heq => hnot (heq ▸ ha)
    | _ => cases he
  · exact hnodup

theorem head?_grow (h : ∀ owner, streams.head? = some owner → owner = none)
    (hfirst : owner = none ∨ none ∈ streams) :
    ∀ first, (grow streams owner e).head? = some first → first = none := by
  intro first hhead
  rw [grow] at hhead
  split at hhead
  · cases streams with
    | nil =>
      obtain rfl := Option.some.inj hhead
      exact hfirst.resolve_right List.not_mem_nil
    | cons other streams => exact h first hhead
  · exact h first hhead

end Streams

namespace Session

def start (apiKey : Bytes 16) : Session := ⟨.start apiKey.toList, [], []⟩

/-- There is a worker only behind the authentication. -/
def step (s : Session) : SessionEvent → Option Session
  | .auth e => (s.auth.step authContexts readReply e).map fun auth =>
    { s with auth, streams := grow s.streams none e }
  | .handed bytes =>
    match s.auth.phase with
    | .ended (.ok ()) => some { s with sends := s.sends ++ [.start bytes] }
    | _ => none
  | .send i e => do
    let x ← s.sends[i]?
    let x ← x.step sendContexts readResponse e
    pure { s with sends := s.sends.set i x, streams := grow s.streams (some i) e }

def handedOf : SessionEvent → Option (List UInt8)
  | .handed bytes => some bytes
  | _ => none

/-- The invariant of a session: what stands about each exchange and its stream, and what they are
for. -/
structure Safe (apiKey : Bytes 16) (past : List SessionEvent) (s : Session) : Prop where
  auth : s.auth.Sound readReply
  key : s.auth.request = apiKey.toList
  sends : ∀ x ∈ s.sends, x.Sound readResponse
  requests : s.sends.map Exchange.request = past.filterMap handedOf
  allowed : s.sends ≠ [] → s.auth.phase = .ended (.ok ())
  nodup : s.streams.Nodup
  first : ∀ owner, s.streams.head? = some owner → owner = none
  inside : ∀ i, some i ∈ s.streams → i < s.sends.length
  authStream : Carried s.streams none s.auth
  sendStream : ∀ (i : Nat) x, s.sends[i]? = some x → Carried s.streams (some i) x

theorem safe_start (apiKey : Bytes 16) : (start apiKey).Safe apiKey [] where
  auth := Exchange.sound_start _
  key := rfl
  sends _ hx := absurd hx List.not_mem_nil
  requests := rfl
  allowed h := absurd rfl h
  nodup := .nil
  first _ h := nomatch h
  inside _ h := absurd h List.not_mem_nil
  authStream := ⟨.inr (Exchange.untouched_start _), fun _ => List.not_mem_nil⟩
  sendStream _ _ h := nomatch h

theorem Safe.kept {s s' : Session} (h : s.Safe apiKey past) (hstep : s.step e = some s') :
    s'.Safe apiKey (past ++ [e]) := by
  have hpast (hnone : handedOf e = none) :
      (past ++ [e]).filterMap handedOf = past.filterMap handedOf := by
    rw [List.filterMap_append, List.filterMap_cons, hnone, List.filterMap_nil, List.append_nil]
  cases e with
  | auth e =>
    obtain ⟨auth, hauth, rfl⟩ := Option.map_eq_some_iff.1 hstep
    refine ⟨h.auth.kept hauth, ?_, h.sends, ?_, fun hsends => ?_,
      nodup_grow h.authStream hauth h.nodup,
      head?_grow h.first (.inl rfl), fun i hi => ?_, h.authStream.kept hauth, fun i x hx => ?_⟩
    · exact (Exchange.step_request hauth).trans h.key
    · exact h.requests.trans (hpast rfl).symm
    · have hended := h.allowed hsends
      rw [Exchange.step_ended hended] at hauth
      cases hauth
    · rcases mem_grow.1 hi with hi | ⟨-, heq⟩
      · exact h.inside i hi
      · cases heq
    · exact (h.sendStream i x hx).aside (Option.some_ne_none i) e
  | handed bytes =>
    simp only [step] at hstep
    split at hstep
    · rename_i hended
      obtain rfl := Option.some.inj hstep
      refine ⟨h.auth, h.key, ?_, ?_, fun _ => hended, h.nodup, h.first, fun i hi => ?_, h.authStream,
        fun i x hx => ?_⟩
      · refine List.forall_mem_append.2 ⟨h.sends, List.forall_mem_singleton.2 ?_⟩
        exact Exchange.sound_start bytes
      · rw [List.map_append, List.filterMap_append, h.requests]
        rfl
      · rw [List.length_append]
        exact Nat.lt_add_right _ (h.inside i hi)
      · rw [List.getElem?_append] at hx
        split at hx
        · exact h.sendStream i x hx
        · rename_i hlen
          obtain rfl := List.mem_singleton.1 (List.mem_of_getElem? hx)
          exact ⟨.inr (Exchange.untouched_start bytes), fun _ hi => hlen (h.inside i hi)⟩
    · cases hstep
  | send i e =>
    obtain ⟨x, hx, hstep⟩ := Option.bind_eq_some_iff.1 hstep
    obtain ⟨x', hx', hstep⟩ := Option.bind_eq_some_iff.1 hstep
    obtain rfl := Option.some.inj hstep
    have hnonempty : s.sends ≠ [] := List.ne_nil_of_mem (List.mem_of_getElem? hx)
    have hcarried := h.sendStream i x hx
    have hauth : none ∈ s.streams := by
      rcases h.authStream.stream with hmem | huntouched
      · exact hmem
      · rcases huntouched.phase with hphase | ⟨message, hphase⟩
        · cases hphase.symm.trans (h.allowed hnonempty)
        · cases hphase.symm.trans (h.allowed hnonempty)
    refine ⟨h.auth, h.key, fun y hy => ?_, ?_, fun _ => h.allowed hnonempty,
      nodup_grow hcarried hx' h.nodup, head?_grow h.first (.inr hauth), fun j hj => ?_,
      h.authStream.aside (Option.some_ne_none i).symm e, fun j y hy => ?_⟩
    · rcases List.mem_or_eq_of_mem_set hy with hy | rfl
      · exact h.sends y hy
      · exact (h.sends x (List.mem_of_getElem? hx)).kept hx'
    · have hsame : x'.request = x.request := Exchange.step_request hx'
      rw [hpast rfl, ← h.requests, List.map_set, hsame]
      apply List.ext_getElem?
      intro j
      rw [List.getElem?_set]
      split
      · rename_i hj
        subst hj
        rw [List.getElem?_map, hx]
        simp [(List.getElem?_eq_some_iff.1 hx).1]
      · rfl
    · rw [List.length_set]
      rcases mem_grow.1 hj with hj | ⟨-, heq⟩
      · exact h.inside j hj
      · obtain rfl := Option.some.inj heq
        exact (List.getElem?_eq_some_iff.1 hx).1
    · by_cases hij : i = j
      · subst hij
        rw [List.getElem?_set_self (List.getElem?_eq_some_iff.1 hx).1] at hy
        obtain rfl := Option.some.inj hy
        exact hcarried.kept hx'
      · rw [List.getElem?_set_ne hij] at hy
        exact (h.sendStream j y hy).aside (fun heq => hij (Option.some.inj heq).symm) e

theorem safe_of_run (h : run step (start apiKey) events = some s) : s.Safe apiKey events :=
  run_induction (fun past s => s.Safe apiKey past) [] Safe.kept (safe_start apiKey) h

theorem zero_of_readReply (h : readReply.finish bytes = .ok ()) :
    bytes.head? = some 0 ∧ bytes.length ≤ 8 := by
  rw [readReply, Reader.finish] at h
  split at h
  · cases h
  · rename_i hlen
    refine ⟨?_, Nat.le_of_not_lt hlen⟩
    split at h
    · assumption
    · cases h
    · cases h

/-- What the server gets to see of a session, and the client of its answers. -/
structure Speaks (apiKey : Bytes 16) (handed : List (List UInt8)) (s : Session) : Prop where
  /-- The first stream carries the key, and all of it once it is finished. -/
  key : (∀ owner, s.streams.head? = some owner → owner = none) ∧ s.auth.written <+: apiKey.toList ∧
    (s.auth.finished = true → s.auth.written = apiKey.toList)
  /-- Without a whole key and a reply that begins with a zero there is no other stream. -/
  admitted : (∃ i, some i ∈ s.streams) → s.auth.finished = true ∧ s.auth.received.head? = some 0
  /-- No transaction has two streams, and no stream is for anything else. -/
  once : s.streams.Nodup ∧ ∀ i, some i ∈ s.streams → i < handed.length
  request : ∀ (i : Nat) x, s.sends[i]? = some x → ∃ bytes, handed[i]? = some bytes ∧
    x.written <+: bytes ∧ (x.finished = true → x.written = bytes)
  /-- Of a transaction whose stream has not been opened, the server sees nothing. -/
  unopened : ∀ (i : Nat) x, s.sends[i]? = some x → some i ∉ s.streams → x.Untouched
  /-- An answer is the frame at the front of what the server has sent on the same stream. -/
  answered : ∀ (i : Nat) x status msg, s.sends[i]? = some x →
    x.phase = .ended (.ok (status, msg)) →
    x.finished = true ∧ msg.length < 2 ^ 32 ∧ frame status msg <+: x.received
  /-- Nobody reads on for an answer that is there. -/
  prompt : ∀ (i : Nat) x reader status msg, s.sends[i]? = some x → x.phase = .reading reader →
    msg.length < 2 ^ 32 → ¬ frame status msg <+: x.received
  /-- An answer that is there before all is written is taken as soon as all is. -/
  early : ∀ (i : Nat) x rest status msg n, s.sends[i]? = some x → x.phase = .writing rest →
    msg.length < 2 ^ 32 → frame status msg <+: x.received → rest.length ≤ n →
    ∃ x', x.step sendContexts readResponse (.accepts n) = some x' ∧
      x'.phase = .ended (.ok (status, msg))

/-- However the bytes of the streams are cut and mixed, and wherever streams fail or time out. -/
theorem session_speaks (h : run step (start apiKey) events = some s) :
    s.Speaks apiKey (events.filterMap handedOf) := by
  have hsafe := safe_of_run h
  have hkey := hsafe.auth.written
  have hsound (i : Nat) (x : Exchange Response) (hx : s.sends[i]? = some x) :
      x.Sound readResponse := hsafe.sends x (List.mem_of_getElem? hx)
  have hlength : s.sends.length = (events.filterMap handedOf).length := by
    rw [← hsafe.requests, List.length_map]
  constructor
  case key =>
    rw [hsafe.key] at hkey
    exact ⟨hsafe.first, hkey⟩
  case admitted =>
    rintro ⟨i, hi⟩
    have hsends : s.sends ≠ [] := List.ne_nil_of_length_pos (Nat.zero_lt_of_lt (hsafe.inside i hi))
    have hauth := hsafe.auth
    rw [Exchange.Sound, hsafe.allowed hsends] at hauth
    obtain ⟨hfinished, hreply⟩ := hauth.2.2 () rfl
    exact ⟨hfinished, (zero_of_readReply hreply).1⟩
  case once => exact ⟨hsafe.nodup, fun i hi => hlength ▸ hsafe.inside i hi⟩
  case request =>
    intro i x hx
    refine ⟨x.request, ?_, (hsound i x hx).written⟩
    rw [← hsafe.requests, List.getElem?_map, hx, Option.map_some]
  case unopened =>
    intro i x hx hnot
    exact (hsafe.sendStream i x hx).stream.resolve_left hnot
  case answered =>
    intro i x status msg hx hphase
    have hx' := hsound i x hx
    rw [Exchange.Sound, hphase] at hx'
    obtain ⟨hfinished, hread⟩ := hx'.2.2 _ rfl
    exact ⟨hfinished, frame_of_readResponse hread⟩
  case prompt =>
    rintro i x reader status msg hx hphase hlen ⟨rest, hframe⟩
    have hx' := hsound i x hx
    rw [Exchange.Sound, hphase] at hx'
    obtain ⟨-, -, -, hpoll, hresult⟩ := hx'
    have hdone := readResponse_of_frame hlen status rest
    rw [hframe, hpoll, hresult] at hdone
    cases hdone
  case early =>
    rintro i x rest status msg n hx hphase hlen ⟨more, hframe⟩ hn
    have hx' := hsound i x hx
    rw [Exchange.Sound, hphase] at hx'
    obtain ⟨-, -, hunread⟩ := hx'
    have hdone := readResponse_of_frame hlen status more
    rw [hframe, ← hunread] at hdone
    have hnil : rest.drop n = [] := List.drop_eq_nil_of_le hn
    simp only [Exchange.step, hphase, hnil, Exchange.write, List.isEmpty_nil, ↓reduceIte]
    refine ⟨_, rfl, ?_⟩
    simp only [Exchange.pump, hdone]

end Session

/-- The key goes out in two parts and is accepted; the answer to one of two transactions comes in
three chunks. -/
def sampleSession : List SessionEvent :=
  [.auth .opened, .auth (.accepts 10), .auth (.accepts 6), .auth (.chunk [0]), .auth .fin,
    .handed [1, 2, 3], .handed [4, 5], .send 1 .opened, .send 0 .opened, .send 0 (.accepts 3),
    .send 0 (.chunk [0]), .send 1 (.accepts 1), .send 0 (.chunk [200, 0, 0, 0]),
    .send 1 .timedOut, .send 0 (.chunk [2, 79, 75])]

theorem session_speaks_sample :
    ∃ s, run Session.step (Session.start (.replicate 16 7)) sampleSession = some s ∧
      s.Speaks (.replicate 16 7) [[1, 2, 3], [4, 5]] ∧
      (s.sends[0]?.any fun x => x.received == frame 200 [79, 75]) = true := by
  obtain ⟨s, hs⟩ : ∃ s, run Session.step (Session.start (.replicate 16 7)) sampleSession = some s :=
    ⟨_, rfl⟩
  refine ⟨s, hs, Session.session_speaks hs, ?_⟩
  obtain rfl := Option.some.inj hs
  decide

end TokenPumper.Node1
