import TokenPumper.JitoAuth.Auth
import TokenPumper.Lib.Spacing

namespace TokenPumper.JitoAuth
open Effect Machine Spacing
set_option autoImplicit true

def Event.isRpc : Event → Bool
  | .rpc .. => true
  | .sleep _ => false

structure Ordered (rounds : List Round) : Prop where
  within : ∀ r ∈ rounds, r.now ≤ r.replied
  between : rounds.IsChain fun r r' => r.replied ≤ r'.now

theorem Ordered.tail (h : Ordered (r :: rounds)) : Ordered rounds :=
  ⟨fun r' hr' => h.within r' (List.mem_cons_of_mem r hr'), h.between.tail⟩

def followed (rounds : List Round) : List Round := (rounds.takeWhile fun r => !r.exit).dropLast

theorem followed_exit (hexit : r.exit = true) (rounds : List Round) :
    followed (r :: rounds) = [] := by
  simp [followed, hexit]

theorem followed_cons (hexit : r.exit = false) (hexit' : r'.exit = false) (rounds : List Round) :
    followed (r :: r' :: rounds) = r :: followed (r' :: rounds) := by
  simp [followed, hexit, hexit']

theorem more_or_over (rounds : List Round) :
    (∃ r rest, rounds = r :: rest ∧ r.exit = false) ∨ ∀ r ∈ rounds.head?, r.exit = true := by
  cases rounds with
  | nil => exact .inr fun r hr => nomatch hr
  | cons r rest =>
    cases hexit : r.exit with
    | true => exact .inr fun r' hr' => Option.some.inj hr' ▸ hexit
    | false => exact .inl ⟨r, rest, rfl, hexit⟩

theorem takeWhile_over {rounds : List Round} (h : ∀ r ∈ rounds.head?, r.exit = true) :
    rounds.takeWhile (fun r => !r.exit) = [] := by
  cases rounds with
  | nil => rfl
  | cons r rounds => simp [h r rfl]

theorem followed_over {rounds : List Round} (h : ∀ r ∈ rounds.head?, r.exit = true) :
    followed rounds = [] := by
  rw [followed, takeWhile_over h, List.dropLast_nil]

theorem followed_last {rounds : List Round} (h : ∀ r ∈ rounds.head?, r.exit = true)
    (hexit : r.exit = false) : followed (r :: rounds) = [] := by
  simp [followed, hexit, takeWhile_over h]

def Ended (s' : Option Refresher) : Prop := ∀ s ∈ s', s.refreshToken.expiresAtUtc = none

theorem ended_start (h : access.expiresAtUtc = none ∨ refresh.expiresAtUtc = none) :
    Ended (start access refresh) := by
  intro s hs
  obtain ⟨expires, haccess, rfl⟩ := Option.map_eq_some_iff.1 hs
  exact h.resolve_left (Option.ne_none_iff_exists'.2 ⟨expires, haccess⟩)

section Clock
variable [TimestampTime] {now now' : Int}

theorem ttlFrom_le (h : now ≤ now') (ts : Timestamp) : ttlFrom now' ts ≤ ttlFrom now ts := by
  rw [ttlFrom, ttlFrom]
  cases TimestampTime.systemTime ts with
  | none => exact Nat.le_refl _
  | some t =>
    simp only [Option.bind_some, durationSince]
    by_cases hlater : now' ≤ t
    · rw [if_pos hlater, if_pos (h.trans hlater), Option.getD_some, Option.getD_some]
      omega
    · rw [if_neg hlater, Option.getD_none]
      exact Nat.zero_le _

def Token.lasts (now : Int) (t : Token) : Bool :=
  t.expiresAtUtc.any fun expires => refreshMargin ≤ ttlFrom now expires

/-- Which tokens of a reply have to last: it is never enough that there are none, and always that
all of them last. -/
structure Demand where
  met : Int → List Token → Bool
  met_nil : ∀ now, met now [] = false
  short_of_unmet : ∀ {now t ts}, met now (t :: ts) = false → ∃ t' ∈ t :: ts, t'.lasts now = false

def Demand.one : Demand where
  met now ts := ts.any (·.lasts now)
  met_nil _ := rfl
  short_of_unmet := by
    intro now t ts h
    exact ⟨t, List.mem_cons_self, by simpa using List.any_eq_false.1 h t List.mem_cons_self⟩

def Demand.each : Demand where
  met now ts := !ts.isEmpty && ts.all (·.lasts now)
  met_nil _ := rfl
  short_of_unmet := by
    intro now t ts h
    have hall : (t :: ts).all (·.lasts now) = false := h
    obtain ⟨t', ht', hlasts⟩ := List.all_eq_false.1 hall
    exact ⟨t', ht', by simpa using hlasts⟩

def Event.served (demand : Demand) : Event → Bool
  | .rpc _ installed replied => demand.met replied installed
  | .sleep _ => false

/-- Between two calls there is a sleep, or the earlier one brought tokens that last. -/
def Paced (demand : Demand) (trace : List Event) : Prop :=
  Spaced Event.isRpc (.sleep refreshPoll) (Event.served demand) trace

def Refresher.Due (s : Refresher) (now : Int) : Prop :=
  ∃ expires, s.refreshToken.expiresAtUtc = some expires ∧
    (ttlFrom now expires < refreshMargin ∨ ttlFrom now s.accessExpires < refreshMargin)

theorem Refresher.Due.later (h : s.Due now) (hnow : now ≤ now') : Refresher.Due s now' := by
  obtain ⟨expires, hexpires, hdue⟩ := h
  refine ⟨expires, hexpires, hdue.imp ?_ ?_⟩
  · exact (ttlFrom_le hnow expires).trans_lt
  · exact (ttlFrom_le hnow s.accessExpires).trans_lt

theorem ttlFrom_of_not_lasts {t : Token} (h : t.lasts now = false)
    (hexpires : t.expiresAtUtc = some expires) : ttlFrom now expires < refreshMargin := by
  rw [Token.lasts, hexpires] at h
  simpa using h

/-- The iteration goes on without a sleep, and without tokens that meet the demand. -/
def Refresher.Wrong (demand : Demand) (s : Refresher) (r : Round) : Prop :=
  ∃ expires, s.refreshToken.expiresAtUtc = some expires ∧
    if ttlFrom r.now expires < refreshMargin then
      ∃ challenge access refresh, r.challenge = .ok challenge ∧
        r.tokens = .ok ⟨some access, some refresh⟩ ∧ access.expiresAtUtc.isSome = true ∧
        refresh.expiresAtUtc.isSome = true ∧ demand.met r.replied [access, refresh] = false
    else
      ttlFrom r.now s.accessExpires < refreshMargin ∧
        ∀ access, r.refreshed = .ok (some access) →
          access.expiresAtUtc.isSome = true ∧ demand.met r.replied [access] = false

end Clock

section Steps
variable [TimestampTime] {s : Refresher} {s' : Option Refresher} {r : Round} {out : List Event}
  {demand : Demand}

def Fine (demand : Demand) (s : Option Refresher) (r : Round) : Prop :=
  ∀ x ∈ s, ¬ x.Wrong demand r

inductive Iteration (s : Refresher) (r : Round) : Option Refresher → List Event → Prop
  | expiryMissing (hexpires : s.refreshToken.expiresAtUtc = none) : Iteration s r none []
  | handshaken (hexpires : s.refreshToken.expiresAtUtc = some expires)
      (hshort : ttlFrom r.now expires < refreshMargin) (hchallenge : r.challenge = .ok challenge)
      (htokens : r.tokens = .ok ⟨some access, some refresh⟩) :
      Iteration s r (start access refresh) [.rpc requests [access, refresh] r.replied]
  | handshakeFailed (hexpires : s.refreshToken.expiresAtUtc = some expires)
      (hshort : ttlFrom r.now expires < refreshMargin)
      (hno : ∀ challenge access refresh, r.challenge = .ok challenge →
        r.tokens ≠ .ok ⟨some access, some refresh⟩) :
      Iteration s r (some s) [.rpc requests [] r.replied, .sleep refreshPoll]
  | refreshed (hexpires : s.refreshToken.expiresAtUtc = some expires)
      (hlong : ¬ ttlFrom r.now expires < refreshMargin)
      (hshort : ttlFrom r.now s.accessExpires < refreshMargin)
      (haccess : r.refreshed = .ok (some access)) :
      Iteration s r (access.expiresAtUtc.map fun expires => { s with accessExpires := expires })
        [.rpc requests [access] r.replied]
  | refreshFailed (hexpires : s.refreshToken.expiresAtUtc = some expires)
      (hlong : ¬ ttlFrom r.now expires < refreshMargin)
      (hshort : ttlFrom r.now s.accessExpires < refreshMargin)
      (hno : ∀ access, r.refreshed ≠ .ok (some access)) :
      Iteration s r (some s) [.rpc requests [] r.replied]
  | idle (hexpires : s.refreshToken.expiresAtUtc = some expires)
      (hlong : ¬ ttlFrom r.now expires < refreshMargin)
      (hlong' : ¬ ttlFrom r.now s.accessExpires < refreshMargin) :
      Iteration s r (some s) [.sleep refreshPoll]

namespace Iteration

theorem sleep_of_not_rpc (h : Iteration s r s' out) :
    ∀ e ∈ out, e.isRpc = false → e = .sleep refreshPoll := by
  cases h <;> simp [Event.isRpc]

theorem isChain (h : Iteration s r s' out) :
    out.IsChain (Apart Event.isRpc (Event.served demand)) := by
  cases h <;> simp [Apart, Event.isRpc]

theorem rpc_of_due (h : Iteration s r s' out) (hdue : s.Due r.now) :
    ∃ requests installed rest, out = .rpc requests installed r.replied :: rest := by
  obtain ⟨expires, hexpires, hdue⟩ := hdue
  cases h with
  | expiryMissing hnone => cases hnone.symm.trans hexpires
  | handshaken => exact ⟨_, _, _, rfl⟩
  | handshakeFailed => exact ⟨_, _, _, rfl⟩
  | refreshed => exact ⟨_, _, _, rfl⟩
  | refreshFailed => exact ⟨_, _, _, rfl⟩
  | idle hexpires' hlong hlong' =>
    obtain rfl := Option.some.inj (hexpires'.symm.trans hexpires)
    exact absurd hdue (not_or.2 ⟨hlong, hlong'⟩)

theorem of_wrong (h : Iteration s r s' out) (hwrong : s.Wrong demand r) (hr : r.now ≤ r.replied) :
    ∃ s₁ requests installed, s' = some s₁ ∧ out = [.rpc requests installed r.replied] ∧
      demand.met r.replied installed = false ∧ s₁.Due r.replied := by
  obtain ⟨expires, hexpires, hwrong⟩ := hwrong
  cases h with
  | expiryMissing hnone => cases hnone.symm.trans hexpires
  | @handshaken expires' challenge access refresh requests hexpires' hshort hchallenge htokens =>
    obtain rfl := Option.some.inj (hexpires'.symm.trans hexpires)
    rw [if_pos hshort] at hwrong
    obtain ⟨challenge', access', refresh', -, htokens', haccess, hrefresh, hunmet⟩ := hwrong
    obtain ⟨rfl, rfl⟩ : access = access' ∧ refresh = refresh' := by
      simpa using htokens.symm.trans htokens'
    obtain ⟨accessExpires, haccess⟩ := Option.isSome_iff_exists.1 haccess
    obtain ⟨refreshExpires, hrefresh⟩ := Option.isSome_iff_exists.1 hrefresh
    have hstart : start access refresh = some ⟨refresh, accessExpires⟩ := by
      rw [start, haccess, Option.map_some]
    refine ⟨⟨refresh, accessExpires⟩, requests, _, hstart, rfl, hunmet, refreshExpires, hrefresh,
      ?_⟩
    obtain ⟨t, ht, hlasts⟩ := demand.short_of_unmet hunmet
    rcases List.mem_cons.1 ht with rfl | ht
    · exact .inr (ttlFrom_of_not_lasts hlasts haccess)
    · obtain rfl := List.mem_singleton.1 ht
      exact .inl (ttlFrom_of_not_lasts hlasts hrefresh)
  | handshakeFailed hexpires' hshort hno =>
    obtain rfl := Option.some.inj (hexpires'.symm.trans hexpires)
    rw [if_pos hshort] at hwrong
    obtain ⟨challenge, access, refresh, hchallenge, htokens, -⟩ := hwrong
    exact absurd htokens (hno challenge access refresh hchallenge)
  | @refreshed expires' access requests hexpires' hlong hshort haccess =>
    obtain rfl := Option.some.inj (hexpires'.symm.trans hexpires)
    rw [if_neg hlong] at hwrong
    obtain ⟨hsome, hunmet⟩ := hwrong.2 access haccess
    obtain ⟨accessExpires, hsome⟩ := Option.isSome_iff_exists.1 hsome
    refine ⟨{ s with accessExpires }, requests, _, by rw [hsome, Option.map_some], rfl, hunmet,
      expires', hexpires, .inr ?_⟩
    obtain ⟨t, ht, hlasts⟩ := demand.short_of_unmet hunmet
    obtain rfl := List.mem_singleton.1 ht
    exact ttlFrom_of_not_lasts hlasts hsome
  | @refreshFailed expires' requests hexpires' hlong hshort hno =>
    have hdue : s.Due r.now := ⟨expires', hexpires', .inr hshort⟩
    exact ⟨s, requests, [], rfl, rfl, demand.met_nil r.replied, hdue.later hr⟩
  | idle hexpires' hlong hlong' =>
    obtain rfl := Option.some.inj (hexpires'.symm.trans hexpires)
    rw [if_neg hlong] at hwrong
    exact absurd hwrong.1 hlong'

/-- Of an iteration that is not wrong, a call without a sleep behind it has brought enough. -/
theorem served_of_not_wrong (h : Iteration s r s' out) (hnot : ¬ s.Wrong demand r)
    (ha : a ∈ out.getLast?) (hrpc : a.isRpc = true) : a.served demand = true ∨ Ended s' := by
  cases h with
  | expiryMissing => cases ha
  | @handshaken expires challenge access refresh requests hexpires hshort hchallenge htokens =>
    obtain rfl := Option.some.inj ha
    by_contra hbad
    obtain ⟨hunserved, hgoes⟩ := not_or.1 hbad
    have haccess : access.expiresAtUtc ≠ none := fun hnone => hgoes (ended_start (.inl hnone))
    have hrefresh : refresh.expiresAtUtc ≠ none := fun hnone => hgoes (ended_start (.inr hnone))
    apply hnot
    refine ⟨expires, hexpires, ?_⟩
    rw [if_pos hshort]
    exact ⟨challenge, access, refresh, hchallenge, htokens, Option.isSome_iff_ne_none.2 haccess,
      Option.isSome_iff_ne_none.2 hrefresh, Bool.eq_false_iff.2 hunserved⟩
  | handshakeFailed =>
    obtain rfl := Option.some.inj ha
    cases hrpc
  | @refreshed expires access requests hexpires hlong hshort haccess =>
    obtain rfl := Option.some.inj ha
    by_contra hbad
    obtain ⟨hunserved, hgoes⟩ := not_or.1 hbad
    have hsome : access.expiresAtUtc ≠ none := by
      intro hnone
      apply hgoes
      rw [hnone]
      exact fun s hs => nomatch hs
    apply hnot
    refine ⟨expires, hexpires, ?_⟩
    rw [if_neg hlong]
    refine ⟨hshort, ?_⟩
    intro access' haccess'
    obtain rfl : access = access' := by simpa using haccess.symm.trans haccess'
    exact ⟨Option.isSome_iff_ne_none.2 hsome, Bool.eq_false_iff.2 hunserved⟩
  | @refreshFailed expires requests hexpires hlong hshort hno =>
    refine absurd ⟨expires, hexpires, ?_⟩ hnot
    rw [if_neg hlong]
    exact ⟨hshort, fun access haccess => absurd haccess (hno access)⟩
  | idle =>
    obtain rfl := Option.some.inj ha
    cases hrpc

end Iteration

theorem not_paced (demand : Demand)
    (h : events' = [.rpc requests [] replied, .rpc requests' installed' replied']) :
    ¬ Paced demand events' := by
  intro hpaced
  have hcons : Consecutive Event.isRpc events' (.rpc requests [] replied) []
      (.rpc requests' installed' replied') :=
    ⟨rfl, rfl, fun e he => absurd he List.not_mem_nil, [], [], h⟩
  rcases hpaced _ _ _ hcons with hmem | hserved
  · exact List.not_mem_nil hmem
  · exact Bool.false_ne_true ((demand.met_nil replied).symm.trans hserved)

end Steps

theorem call_run (context : String) (request : Request) (reply : Round → Reply α)
    (requests : List Request) : mapFailure (context :: ·) (call request reply) r requests =
      ((reply r).mapError (context :: ·), requests ++ [request]) := by
  have hcall : call request reply r requests = (reply r, requests ++ [request]) := rfl
  rw [mapFailure, hcall]
  cases reply r <;> rfl

section Handshake
variable [Ed25519] [Base58Encode] {keypair : SigningKey} {role : Role} {r : Round}

theorem challengeAndSign_eq_ok : (challengeAndSign keypair role r []).1 = .ok (access, refresh) ↔
    (∃ challenge, r.challenge = .ok challenge) ∧ r.tokens = .ok ⟨some access, some refresh⟩ := by
  have hfirst := call_run "generate_auth_challenge" (.challenge role (Ed25519.verifyingKey keypair))
    Round.challenge (r := r) []
  have hsecond (request : Request) (requests : List Request) :=
    call_run "generate_auth_tokens" request Round.tokens (r := r) requests
  cases hchallenge : r.challenge with
  | error chain =>
    rw [hchallenge] at hfirst
    have hrun : challengeAndSign keypair role r [] = _ := bind_run_error hfirst
    rw [hrun]
    simp
  | ok challenge =>
    rw [hchallenge] at hfirst
    cases htokens : r.tokens with
    | error chain =>
      simp only [htokens] at hsecond
      have hrun : challengeAndSign keypair role r [] = _ :=
        (bind_run_ok hfirst).trans (bind_run_error (hsecond _ _))
      rw [hrun]
      simp
    | ok response =>
      simp only [htokens] at hsecond
      have hrun : challengeAndSign keypair role r [] = _ :=
        (bind_run_ok hfirst).trans (bind_run_ok (hsecond _ _))
      rw [hrun]
      obtain ⟨accessToken, refreshToken⟩ := response
      cases accessToken with
      | none => simp [fail]
      | some access' =>
        cases refreshToken with
        | none => simp [fail]
        | some refresh' => simp

variable [TimestampTime]

theorem iterate_iteration (s : Refresher) (r : Round) :
    Iteration s r (s.iterate keypair role r).1 (s.iterate keypair role r).2 := by
  rw [Refresher.iterate]
  cases hexpires : s.refreshToken.expiresAtUtc with
  | none => exact .expiryMissing hexpires
  | some expires =>
    dsimp only
    split
    · rename_i hshort
      rw [Refresher.rehandshake]
      split
      · rename_i access refresh requests hsign
        obtain ⟨⟨challenge, hchallenge⟩, htokens⟩ :=
          challengeAndSign_eq_ok.1 (congrArg Prod.fst hsign)
        exact .handshaken hexpires hshort hchallenge htokens
      · rename_i requests hsign
        refine .handshakeFailed hexpires hshort ?_
        intro challenge access refresh hchallenge htokens
        have hok : (challengeAndSign keypair role r []).1 = .ok (access, refresh) :=
          challengeAndSign_eq_ok.2 ⟨⟨challenge, hchallenge⟩, htokens⟩
        cases (congrArg Prod.fst hsign).symm.trans hok
    · rename_i hlong
      split
      · rename_i hshort
        rw [Refresher.refreshAccess]
        cases hreply : r.refreshed with
        | error chain => exact .refreshFailed hexpires hlong hshort (by simp [hreply])
        | ok access =>
          cases access with
          | none => exact .refreshFailed hexpires hlong hshort (by simp [hreply])
          | some access => exact .refreshed hexpires hlong hshort hreply
      · rename_i hlong'
        exact .idle hexpires hlong hlong'

theorem trace_none (rounds : List Round) : trace keypair role none rounds = [] := by
  cases rounds <;> rfl

theorem trace_exit (hexit : r.exit = true) (s : Option Refresher) (rounds : List Round) :
    trace keypair role s (r :: rounds) = [] := by
  cases s with
  | none => exact trace_none (r :: rounds)
  | some s =>
    have hstep : step keypair role (some s) r = some (none, []) := by
      rw [step, Option.map_some, if_pos hexit]
    rw [trace, outputs, hstep]
    exact trace_none rounds

theorem step_of_not_exit (hexit : r.exit = false) (s : Refresher) :
    step keypair role (some s) r = some (s.iterate keypair role r) := by
  rw [step, Option.map_some, if_neg (by simp [hexit])]

theorem trace_cons (hexit : r.exit = false) (s : Refresher) (rounds : List Round) :
    trace keypair role (some s) (r :: rounds) =
      (s.iterate keypair role r).2 ++ trace keypair role (s.iterate keypair role r).1 rounds := by
  rw [trace, outputs, step_of_not_exit hexit]
  rfl

theorem trace_of_ended (h : Ended s) (rounds : List Round) : trace keypair role s rounds = [] := by
  cases s with
  | none => exact trace_none rounds
  | some s =>
    cases rounds with
    | nil => rfl
    | cons r rounds =>
      cases hexit : r.exit with
      | true => exact trace_exit hexit (some s) rounds
      | false =>
        have hiterate : s.iterate keypair role r = (none, []) := by
          rw [Refresher.iterate, h s rfl]
        rw [trace_cons hexit, hiterate]
        exact trace_none rounds

theorem sleep_of_mem_trace (rounds : List Round) (s : Option Refresher) :
    ∀ e ∈ trace keypair role s rounds, e.isRpc = false → e = .sleep refreshPoll := by
  intro e he
  apply outputs_forall (fun _ => True) (fun e : Event => e.isRpc = false → e = .sleep refreshPoll)
    _ trivial e he
  intro s r s' out _ hstep
  refine ⟨trivial, ?_⟩
  obtain ⟨s, rfl, hout⟩ := Option.map_eq_some_iff.1 hstep
  split at hout
  · cases hout
    exact fun e he => absurd he List.not_mem_nil
  · have hiteration : Iteration s r (s.iterate keypair role r).1 (s.iterate keypair role r).2 :=
      iterate_iteration s r
    rw [hout] at hiteration
    exact hiteration.sleep_of_not_rpc

theorem along_none {fine : Option Refresher → Round → Prop} (h : ∀ r, fine none r)
    (rounds : List Round) : Along (next keypair role) fine none rounds := by
  cases rounds with
  | nil => trivial
  | cons r rounds => exact ⟨h r, fun s' hs' => nomatch hs'⟩

theorem trace_over {rounds : List Round} (h : ∀ r ∈ rounds.head?, r.exit = true)
    (s : Option Refresher) : trace keypair role s rounds = [] := by
  cases rounds with
  | nil => cases s <;> rfl
  | cons r rounds => exact trace_exit (h r rfl) s rounds

theorem isChain_join_iff (h : Iteration s r s' out) (hr : r.now ≤ r.replied)
    (hr' : r.replied ≤ r'.now) (hexit : r'.exit = false) (rounds : List Round) :
    (∀ a ∈ out.getLast?, ∀ b ∈ (trace keypair role s' (r' :: rounds)).head?,
      Apart Event.isRpc (Event.served demand) a b) ↔ ¬ s.Wrong demand r := by
  constructor
  · intro hjoin hwrong
    obtain ⟨s₁, requests, installed, rfl, rfl, hunmet, hdue⟩ := h.of_wrong hwrong hr
    have hnext : Iteration s₁ r' (s₁.iterate keypair role r').1 (s₁.iterate keypair role r').2 :=
      iterate_iteration s₁ r'
    obtain ⟨requests', installed', rest, hout⟩ := hnext.rpc_of_due (hdue.later hr')
    have happart := hjoin _ rfl (.rpc requests' installed' r'.replied)
      (by rw [trace_cons hexit, hout]; rfl) rfl rfl
    exact Bool.false_ne_true (hunmet.symm.trans happart)
  · intro hnot a ha b hb hrpc _
    refine (h.served_of_not_wrong hnot ha hrpc).resolve_right ?_
    intro hended
    rw [trace_of_ended hended] at hb
    cases hb

/-- The calls of a run are apart exactly if no iteration before another one is wrong. -/
theorem isChain_trace_iff (demand : Demand) (hclock : Ordered rounds) (s : Option Refresher) :
    (trace keypair role s rounds).IsChain (Apart Event.isRpc (Event.served demand)) ↔
      Along (next keypair role) (Fine demand) s (followed rounds) := by
  induction rounds generalizing s with
  | nil =>
    have hover : ∀ r ∈ ([] : List Round).head?, r.exit = true := by
      simp
    rw [trace_over hover]
    exact iff_of_true .nil trivial
  | cons r rounds ih =>
    cases s with
    | none =>
      rw [trace_none]
      exact iff_of_true .nil (along_none (fun r x hx => nomatch hx) _)
    | some s =>
      cases hexit : r.exit with
      | true =>
        rw [trace_exit hexit, followed_exit hexit]
        exact iff_of_true .nil trivial
      | false =>
        have hiteration : Iteration s r (s.iterate keypair role r).1 (s.iterate keypair role r).2 :=
          iterate_iteration s r
        rw [trace_cons hexit, List.isChain_append, ih hclock.tail]
        rcases more_or_over rounds with ⟨r', rest, rfl, hexit'⟩ | hover
        · have hnext : next keypair role (some s) r = some (s.iterate keypair role r).1 := by
            rw [next, step_of_not_exit hexit, Option.map_some]
          have hr := hclock.within r List.mem_cons_self
          have hr' := (List.isChain_cons_cons.1 hclock.between).1
          rw [followed_cons hexit hexit', isChain_join_iff hiteration hr hr' hexit']
          constructor
          · rintro ⟨-, hrest, hnot⟩
            refine ⟨fun x hx => Option.some.inj hx ▸ hnot, ?_⟩
            intro s' hs'
            obtain rfl := Option.some.inj (hnext.symm.trans hs')
            exact hrest
          · intro h
            exact ⟨hiteration.isChain, h.2 _ hnext, h.1 s rfl⟩
        · rw [followed_last hover hexit, followed_over hover, trace_over hover]
          exact iff_of_true ⟨hiteration.isChain, trivial, fun a _ b hb => nomatch hb⟩ trivial

/-- The refresher keeps its calls apart exactly if every iteration that another one follows either
sleeps, or ends the task, or brings tokens that last. -/
theorem paced_iff (demand : Demand) (keypair : SigningKey) (role : Role) (access refresh : Token)
    (rounds : List Round) (hclock : Ordered rounds) :
    Paced demand (events keypair role access refresh rounds) ↔
      Along (next keypair role) (Fine demand) (start access refresh) (followed rounds) := by
  rw [Paced, events, spaced_iff_isChain (sleep_of_mem_trace rounds (start access refresh))]
  exact isChain_trace_iff demand hclock (start access refresh)

end Handshake

/-- Timestamps of whole seconds in the years that a `SystemTime` has. -/
abbrev TimestampTime.plain : TimestampTime where
  systemTime ts := some (ts.seconds.toInt * 1000000000 + ts.nanos.toInt)

abbrev Base58Encode.silent : Base58Encode := ⟨fun _ => ""⟩

def timestampAt (seconds : Int64) : Timestamp := ⟨seconds, 0⟩

def sampleRefresh : Token := ⟨"refresh", some (timestampAt 1700086400)⟩

def sampleAccess : Token := ⟨"access", some (timestampAt 1700000240)⟩

def secondsAt (seconds : Int) : Int := seconds * 1000000000

def sampleRound (now replied : Int) (refreshed : Reply (Option Token)) : Round where
  exit := false
  now := secondsAt now
  challenge := .error ["status: Unavailable"]
  tokens := .error ["status: Unavailable"]
  refreshed := refreshed
  replied := secondsAt replied

/-- The first refresh brings an access token for half an hour; the loop then sleeps. -/
def calmRounds : List Round :=
  [sampleRound 1700000000 1700000001 (.ok (some ⟨"access-2", some (timestampAt 1700001800)⟩)),
    sampleRound 1700000001 1700000001 (.error ["status: Unavailable"]),
    sampleRound 1700000006 1700000006 (.error ["status: Unavailable"])]

def outageRounds : List Round :=
  [sampleRound 1700000000 1700000000 (.error ["status: Unavailable"]),
    sampleRound 1700000000 1700000000 (.error ["status: Unavailable"])]

def sampleEvents (rounds : List Round) : List Event :=
  @events Ed25519.sample Base58Encode.silent (Vector.replicate 32 1) .shredstreamSubscriber
    TimestampTime.plain sampleAccess sampleRefresh rounds

theorem paced_iff_sample : Ordered calmRounds ∧
    @Paced TimestampTime.plain (@Demand.each TimestampTime.plain) (sampleEvents calmRounds) := by
  have hclock : Ordered calmRounds := ⟨by decide, by decide⟩
  refine ⟨hclock, (@paced_iff Ed25519.sample Base58Encode.silent TimestampTime.plain _ _ _ _ _ _
    hclock).2 ?_⟩
  refine ⟨?_, ?_⟩
  · intro s hs hwrong
    cases hs
    obtain ⟨expires, hexpires, hwrong⟩ := hwrong
    cases hexpires
    rw [if_neg (by decide)] at hwrong
    exact absurd (hwrong.2 _ rfl).2 (by decide)
  · intro s' hs'
    cases hs'
    refine ⟨?_, fun _ _ => trivial⟩
    intro s hs hwrong
    cases hs
    obtain ⟨expires, hexpires, hwrong⟩ := hwrong
    cases hexpires
    rw [if_neg (by decide)] at hwrong
    exact absurd hwrong.1 (by decide)

theorem outage_not_paced : Ordered outageRounds ∧
    ¬ @Paced TimestampTime.plain (@Demand.one TimestampTime.plain) (sampleEvents outageRounds) ∧
    ¬ @Paced TimestampTime.plain (@Demand.each TimestampTime.plain)
      (sampleEvents outageRounds) := by
  have hevents : sampleEvents outageRounds =
      [.rpc [.refresh "refresh"] [] (secondsAt 1700000000),
        .rpc [.refresh "refresh"] [] (secondsAt 1700000000)] := rfl
  refine ⟨⟨by decide, by decide⟩, ?_, ?_⟩
  · exact @not_paced TimestampTime.plain _ _ _ _ _ _ _ hevents
  · exact @not_paced TimestampTime.plain _ _ _ _ _ _ _ hevents

end TokenPumper.JitoAuth
