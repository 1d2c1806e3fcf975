import RecordWire.Proofs.OnlineUsers
/-!
# The server's queue as a transcript

Every call on a chat server appends to its queue what it tells the clients (`queued`): an
accepted login, a connected answer listing the names online before it and then the name
joining; a refused login, a connected answer with result 1 and nothing else changed; something
said while a user is logged in, that user's name with the message; a disconnect while a user is
logged in, their leaving. The queue alone then tells who is logged in (`loggedIn`): the last
user to join, unless a leaving came after.

From every server with nobody logged in, whatever the calls (`queue_is_transcript`):

* no prefix of what the run queued has more leavings of a name than joinings of it. The
  count alone is not kept by a call; what is kept counts the user logged in as one leaving
  still to come (`count_left_add_le`);
* each thing said was queued by a call made while its speaker was logged in, so after the
  speaker joined;
* each accepted connected answer was queued by a login with the server's version, lists the
  names online just before that login, and is followed at once by that login's name joining.

Each entry of the queue is traced back to the call that queued it by `transcript_split`.
-/

namespace RecordWire

namespace Chat

/-! ## Who the queue says is logged in -/

/-- Who is logged in after an entry, `current` having been before it: a joining logs its user
in, a leaving logs out, and other entries change nothing. -/
def announce (current : Option String) : Outbound → Option String
  | .joined w => some w
  | .left _ => none
  | _ => current

/-- Who is logged in by the announcements of a queue. -/
def loggedIn (q : List Outbound) : Option String := q.foldl announce none

@[simp] theorem loggedIn_nil : loggedIn [] = none := rfl

theorem loggedIn_append_singleton (q : List Outbound) (e : Outbound) :
    loggedIn (q ++ [e]) = announce (loggedIn q) e := by
  simp [loggedIn]

theorem joined_mem_of_loggedIn {q : List Outbound} {w : String} (h : loggedIn q = some w) :
    .joined w ∈ q := by
  induction q using List.reverseRecOn with
  | nil => simp at h
  | append_singleton q e ih =>
    rw [loggedIn_append_singleton] at h
    cases e with
    | joined u =>
      simp only [announce, Option.some.injEq] at h
      simp [h]
    | left u => simp [announce] at h
    | connected p | said u m => simp [ih h]

/-- Each leaving in `q` is of the user logged in just before it. -/
def LeavesLoggedIn (q : List Outbound) : Prop :=
  ∀ pre w post, q = pre ++ .left w :: post → loggedIn pre = some w

theorem LeavesLoggedIn.of_prefix {q q' : List Outbound} (h : LeavesLoggedIn q) (hq : q' <+: q) :
    LeavesLoggedIn q' := by
  obtain ⟨t, rfl⟩ := hq
  intro pre w post hsplit
  exact h pre w (post ++ t) (by simp [hsplit])

/-- Where each leaving is of the user logged in, the leavings of a name, with the user logged
in counted as one leaving still to come, are at most its joinings. -/
theorem count_left_add_le {q : List Outbound} (h : LeavesLoggedIn q) (w : String) :
    q.count (.left w) + (loggedIn q).toList.count w ≤ q.count (.joined w) := by
  induction q using List.reverseRecOn with
  | nil => simp
  | append_singleton q e ih =>
    have ih := ih (h.of_prefix (List.prefix_append q [e]))
    rw [loggedIn_append_singleton, List.count_append, List.count_append]
    cases e with
    | joined u =>
      -- the joining user is now logged in, and counted once more among the joinings
      by_cases hu : u = w <;> simp [announce, hu] <;> omega
    | left u =>
      -- the user leaving was logged in, so their leaving was already counted as to come
      have hin : loggedIn q = some u := h q u [] rfl
      rw [hin] at ih
      by_cases hu : u = w <;> simp_all [announce]
    | connected p | said u m => simpa [announce] using ih

theorem count_left_le_of_prefix {q q' : List Outbound} (h : LeavesLoggedIn q) (hq : q' <+: q)
    (w : String) : q'.count (.left w) ≤ q'.count (.joined w) :=
  Nat.le_of_add_right_le (count_left_add_le (h.of_prefix hq) w)

namespace Server

/-! ## What a call queues -/

/-- The entries a call appends to the queue. -/
def queued (s : Server) : Call → List Outbound
  | .login p =>
    if p.version ≠ protocolVersion then [.connected ⟨1, protocolVersion, []⟩]
    else [.connected ⟨0, protocolVersion, s.online⟩, .joined p.name]
  | .say m =>
    match s.current with
    | some who => [.said who m]
    | none => []
  | .disconnect =>
    match s.current with
    | some who => [.left who]
    | none => []

theorem outbound_call (s : Server) (c : Call) : (s.call c).outbound = s.outbound ++ s.queued c := by
  cases c with
  | login p => by_cases hv : p.version = protocolVersion <;> simp [Server.call, login, queued, hv]
  | say m => cases h : s.current <;> simp [Server.call, say, queued, h]
  | disconnect => cases h : s.current <;> simp [Server.call, disconnect, queued, h]

/-- A refused login queues one connected answer with result 1 and changes neither the current
user nor the names online. -/
theorem login_refused {s : Server} {p : LoginPacket} (hv : p.version ≠ protocolVersion) :
    (s.login p).outbound = s.outbound ++ [.connected ⟨1, protocolVersion, []⟩] ∧
      (s.login p).current = s.current ∧ (s.login p).online = s.online := by
  simp [login, hv]

/-- A thing said is queued only by saying it while its speaker is logged in, and alone. -/
theorem said_mem_queued {s : Server} {c : Call} {who what : String}
    (h : .said who what ∈ s.queued c) :
    c = .say what ∧ s.current = some who ∧ s.queued c = [.said who what] := by
  cases c with
  | login p => by_cases hv : p.version = protocolVersion <;> simp [queued, hv] at h
  | say m => cases hc : s.current <;> simp_all [queued]
  | disconnect => cases hc : s.current <;> simp_all [queued]

/-- A leaving is queued only by disconnecting the user logged in, and alone. -/
theorem left_mem_queued {s : Server} {c : Call} {w : String} (h : .left w ∈ s.queued c) :
    c = .disconnect ∧ s.current = some w ∧ s.queued c = [.left w] := by
  cases c with
  | login p => by_cases hv : p.version = protocolVersion <;> simp [queued, hv] at h
  | say m => cases hc : s.current <;> simp_all [queued]
  | disconnect => cases hc : s.current <;> simp_all [queued]

/-- An accepted connected answer is queued only by a login with the server's version; it lists
the names online before the login and the login's name joins right after it. -/
theorem connected_mem_queued {s : Server} {c : Call} {p : ConnectedPacket}
    (h : .connected p ∈ s.queued c) (hp : p.result = 0) :
    ∃ lp, c = .login lp ∧ lp.version = protocolVersion ∧ p.users = s.online ∧
      s.queued c = [.connected p, .joined lp.name] := by
  cases c with
  | login lp =>
    by_cases hv : lp.version = protocolVersion
    · simp only [queued, hv, ne_eq, not_true_eq_false, if_false, List.mem_cons,
        Outbound.connected.injEq, reduceCtorEq, List.not_mem_nil, or_false] at h
      subst h
      exact ⟨lp, rfl, hv, rfl, by simp [queued, hv]⟩
    · simp only [queued, hv, ne_eq, not_false_eq_true, if_true, List.mem_singleton,
        Outbound.connected.injEq] at h
      subst h
      simp at hp
  | say m => cases hc : s.current <;> simp_all [queued]
  | disconnect => cases hc : s.current <;> simp_all [queued]

/-- Who is logged in follows the announcements a call queues. -/
theorem current_call {s : Server} {q : List Outbound} (h : s.current = loggedIn q) (c : Call) :
    (s.call c).current = loggedIn (q ++ s.queued c) := by
  cases c with
  | login p =>
    by_cases hv : p.version = protocolVersion
    · simp [Server.call, login, queued, hv, loggedIn, announce]
    · simp [Server.call, login, queued, hv, loggedIn_append_singleton, announce, h]
  | say m =>
    cases hc : s.current <;>
      simp [Server.call, say, queued, hc, ← h, loggedIn_append_singleton, announce]
  | disconnect =>
    cases hc : s.current <;>
      simp [Server.call, disconnect, queued, hc, ← h, loggedIn_append_singleton, announce]

/-! ## What a run queues -/

/-- The entries a run appends to the queue, call after call. -/
def transcript (s : Server) : List Call → List Outbound
  | [] => []
  | c :: cs => s.queued c ++ (s.call c).transcript cs

theorem outbound_run (s : Server) (calls : List Call) :
    (s.run calls).outbound = s.outbound ++ s.transcript calls := by
  induction calls generalizing s with
  | nil => simp [transcript]
  | cons c cs ih => rw [run_cons, ih, outbound_call, transcript, List.append_assoc]

theorem current_run {s : Server} {q : List Outbound} (h : s.current = loggedIn q)
    (calls : List Call) : (s.run calls).current = loggedIn (q ++ s.transcript calls) := by
  induction calls generalizing s q with
  | nil => simpa [transcript] using h
  | cons c cs ih =>
    rw [run_cons, ih (current_call h c), transcript, List.append_assoc]

/-- Each entry of a run's transcript was queued by one call of the run, from the server the
calls before it reached: the entry splits what that call queued, and the transcript around it
is what came before that call and after it. -/
theorem transcript_split {s : Server} {calls : List Call} {pre post : List Outbound}
    {e : Outbound} (h : s.transcript calls = pre ++ e :: post) :
    ∃ before c after qpre qpost, calls = before ++ c :: after ∧
      (s.run before).queued c = qpre ++ e :: qpost ∧
      pre = s.transcript before ++ qpre ∧
      post = qpost ++ ((s.run before).call c).transcript after := by
  induction calls generalizing s pre with
  | nil => simp [transcript] at h
  | cons c cs ih =>
    rw [transcript] at h
    -- the entry is among those `c` queued, or comes after all of them
    rcases List.append_eq_append_iff.mp h with ⟨rest, hpre, htail⟩ | ⟨mid, hq, hpost⟩
    · obtain ⟨before, c', after, qpre, qpost, hcalls, hq, hpre', hpost⟩ := ih htail
      exact ⟨c :: before, c', after, qpre, qpost, by simp [hcalls], hq,
        by simp [transcript, hpre, hpre'], hpost⟩
    · cases mid with
      | nil =>
        obtain ⟨before, c', after, qpre, qpost, hcalls, hq', hpre', hpost'⟩ :=
          ih (show (s.call c).transcript cs = [] ++ e :: post by simpa using hpost.symm)
        exact ⟨c :: before, c', after, qpre, qpost, by simp [hcalls], hq',
          by simp [transcript, hq, ← hpre'], hpost'⟩
      | cons x mid =>
        obtain ⟨rfl, rfl⟩ := List.cons.inj hpost
        exact ⟨[], c, cs, pre, mid, rfl, hq, by simp [transcript], rfl⟩

/-- In a run from a server with nobody logged in, each leaving it queues is of the user logged
in just before it. -/
theorem leavesLoggedIn_transcript {s₀ : Server} (h₀ : s₀.current = none) (calls : List Call) :
    LeavesLoggedIn (s₀.transcript calls) := by
  intro pre w post hsplit
  obtain ⟨before, c, after, qpre, qpost, rfl, hq, rfl, -⟩ := transcript_split hsplit
  -- only a disconnect queues a leaving, and nothing before it in that call
  obtain ⟨-, hcur, hone⟩ := left_mem_queued (show .left w ∈ (s₀.run before).queued c by simp [hq])
  obtain ⟨rfl, -⟩ : qpre = [] ∧ qpost = [] := by
    rw [hone] at hq
    simpa using List.cons_eq_append_iff.mp hq
  rw [← hcur, current_run (q := []) (by simpa using h₀) before]
  simp

/-- The chat server's queue is a transcript of the sessions. From a server with nobody logged
in, for every run: the run appends `q` to the queue; no prefix of `q` has more leavings of a name
than joinings of it; each thing said in `q` was queued by saying it while its speaker was logged
in, from the server the calls before it reached, whose queue held exactly what precedes it, and
after the speaker joined; each accepted connected answer in `q` was queued by a login with the
server's version from the server the calls before it reached, lists the names online there, and
is followed at once by that login's name joining. A login with another version queues one
connected answer with result 1 and changes neither the current user nor the names online. -/
theorem queue_is_transcript {s₀ : Server} (h₀ : s₀.current = none) (calls : List Call) :
    (s₀.run calls).outbound = s₀.outbound ++ s₀.transcript calls ∧
    (∀ (w : String) (q' : List Outbound), q' <+: s₀.transcript calls →
      q'.count (.left w) ≤ q'.count (.joined w)) ∧
    (∀ (pre post : List Outbound) (who what : String),
      s₀.transcript calls = pre ++ .said who what :: post →
      ∃ before after : List Call, calls = before ++ .say what :: after ∧
        (s₀.run before).outbound = s₀.outbound ++ pre ∧ (s₀.run before).current = some who ∧
        .joined who ∈ pre) ∧
    (∀ (pre post : List Outbound) (p : ConnectedPacket),
      s₀.transcript calls = pre ++ .connected p :: post → p.result = 0 →
      ∃ (before after : List Call) (lp : LoginPacket), calls = before ++ .login lp :: after ∧
        lp.version = protocolVersion ∧
        (s₀.run before).outbound = s₀.outbound ++ pre ∧ p.users = (s₀.run before).online ∧
        ∃ rest : List Outbound, post = .joined lp.name :: rest) ∧
    (∀ (s : Server) (lp : LoginPacket), lp.version ≠ protocolVersion →
      (s.login lp).outbound = s.outbound ++ [.connected ⟨1, protocolVersion, []⟩] ∧
        (s.login lp).current = s.current ∧ (s.login lp).online = s.online) := by
  have hstart : s₀.current = loggedIn [] := by simpa using h₀
  refine ⟨outbound_run s₀ calls,
    fun w q' hq' => count_left_le_of_prefix (leavesLoggedIn_transcript h₀ calls) hq' w,
    ?_, ?_, fun s lp hv => login_refused hv⟩
  · intro pre post who what hsplit
    obtain ⟨before, c, after, qpre, qpost, rfl, hq, rfl, -⟩ := transcript_split hsplit
    obtain ⟨rfl, hcur, hone⟩ :=
      said_mem_queued (show .said who what ∈ (s₀.run before).queued c by simp [hq])
    -- the thing said is all that call queued
    obtain ⟨rfl, -⟩ : qpre = [] ∧ qpost = [] := by
      rw [hone] at hq
      simpa using List.cons_eq_append_iff.mp hq
    have hlogged : loggedIn (s₀.transcript before) = some who := by
      rw [← hcur, current_run hstart before]
      simp
    exact ⟨before, after, rfl, by simp [outbound_run], hcur,
      by simpa using joined_mem_of_loggedIn hlogged⟩
  · intro pre post p hsplit hp
    obtain ⟨before, c, after, qpre, qpost, rfl, hq, rfl, rfl⟩ := transcript_split hsplit
    obtain ⟨lp, rfl, hv, husers, htwo⟩ :=
      connected_mem_queued (show .connected p ∈ (s₀.run before).queued c by simp [hq]) hp
    -- the answer opens what the login queued, and the joining closes it
    obtain ⟨rfl, rfl⟩ : qpre = [] ∧ qpost = [.joined lp.name] := by
      rw [htwo] at hq
      rcases List.cons_eq_append_iff.mp hq with ⟨rfl, h⟩ | ⟨a, rfl, h⟩
      · simpa using h
      · rcases List.cons_eq_append_iff.mp h with ⟨rfl, h⟩ | ⟨b, rfl, h⟩ <;> simp at h
    exact ⟨before, after, lp, rfl, hv, by simp [outbound_run], husers, _, rfl⟩

/-- The demonstration's session from the operator alone: "ann" logs in, says something and
disconnects, and the queue is a transcript of it. -/
theorem ann_session_transcript :
    ({ online := ["Operator"] } : Server).current = none ∧
    let calls : List Call := [.login ⟨protocolVersion, "ann", ""⟩, .say "hi", .disconnect]
    let s₀ : Server := { online := ["Operator"] }
    (s₀.run calls).outbound = s₀.outbound ++ s₀.transcript calls ∧
    (∀ (w : String) (q' : List Outbound), q' <+: s₀.transcript calls →
      q'.count (.left w) ≤ q'.count (.joined w)) ∧
    (∀ (pre post : List Outbound) (who what : String),
      s₀.transcript calls = pre ++ .said who what :: post →
      ∃ before after : List Call, calls = before ++ .say what :: after ∧
        (s₀.run before).outbound = s₀.outbound ++ pre ∧ (s₀.run before).current = some who ∧
        .joined who ∈ pre) ∧
    (∀ (pre post : List Outbound) (p : ConnectedPacket),
      s₀.transcript calls = pre ++ .connected p :: post → p.result = 0 →
      ∃ (before after : List Call) (lp : LoginPacket), calls = before ++ .login lp :: after ∧
        lp.version = protocolVersion ∧
        (s₀.run before).outbound = s₀.outbound ++ pre ∧ p.users = (s₀.run before).online ∧
        ∃ rest : List Outbound, post = .joined lp.name :: rest) ∧
    (∀ (s : Server) (lp : LoginPacket), lp.version ≠ protocolVersion →
      (s.login lp).outbound = s.outbound ++ [.connected ⟨1, protocolVersion, []⟩] ∧
        (s.login lp).current = s.current ∧ (s.login lp).online = s.online) :=
  ⟨rfl, queue_is_transcript rfl _⟩

end Server

end Chat

end RecordWire
