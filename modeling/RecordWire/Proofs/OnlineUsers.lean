import Mathlib
import RecordWire.Chat.Server
/-!
# Who is online

A chat server keeps a list of the names online: those it starts with, then each user that logs
in. A login with the server's version puts the name at the end and makes it the current user; a
disconnect takes off every entry of the current user's name; saying something, and a login
with another version, leave the list alone.

While sessions keep to one at a time, each accepted login coming while no user is logged in
and under a name that is not among the starting ones, the list is always the starting names
followed by the current user, if any (`online_tracks_sessions`). Neither condition can go: a
login under a starting name, once disconnected, takes that name off the list altogether
(`login_disconnect_online`), and a second login before a disconnect leaves the first user's
name behind.
-/

namespace RecordWire

namespace Chat

namespace Server

/-! ## Calls and runs -/

/-- A call a client makes on the server. -/
inductive Call where
  /-- A login request. -/
  | login (p : LoginPacket)
  /-- Something said. -/
  | say (message : String)
  /-- The client goes away. -/
  | disconnect
  deriving DecidableEq, Repr

/-- The server after one call. -/
def call (s : Server) : Call → Server
  | .login p => s.login p
  | .say m => s.say m
  | .disconnect => s.disconnect

/-- The server after calls one after another. -/
def run (s : Server) (calls : List Call) : Server := calls.foldl call s

@[simp] theorem run_nil (s : Server) : s.run [] = s := rfl

@[simp] theorem run_cons (s : Server) (c : Call) (cs : List Call) :
    s.run (c :: cs) = (s.call c).run cs := rfl

/-- Saying something changes neither the list nor the current user. -/
@[simp] theorem online_say (s : Server) (m : String) : (s.say m).online = s.online := by
  unfold say
  split <;> rfl

@[simp] theorem current_say (s : Server) (m : String) : (s.say m).current = s.current := by
  unfold say
  split <;> rfl

/-! ## One session at a time -/

/-- A call keeps to one session at a time: a login the server accepts comes while no user is
logged in, under a name not among `I`. -/
def Call.Orderly (I : List String) (s : Server) : Call → Prop
  | .login p => p.version = protocolVersion → s.current = none ∧ p.name ∉ I
  | _ => True

instance (I : List String) (s : Server) : (c : Call) → Decidable (c.Orderly I s)
  | .login _ => inferInstanceAs (Decidable (_ → _))
  | .say _ => isTrue trivial
  | .disconnect => isTrue trivial

/-- Every call of a run from `s` keeps to one session at a time. -/
def Orderly (I : List String) : Server → List Call → Prop
  | _, [] => True
  | s, c :: cs => c.Orderly I s ∧ Orderly I (s.call c) cs

instance decOrderly (I : List String) : (s : Server) → (calls : List Call) →
    Decidable (Orderly I s calls)
  | _, [] => isTrue trivial
  | s, c :: cs =>
    have := decOrderly I (s.call c) cs
    inferInstanceAs (Decidable (c.Orderly I s ∧ Orderly I (s.call c) cs))

/-! ## The list tracks the sessions -/

/-- The names online are `I` followed by the current user, whose name is not among `I`. -/
structure Tracks (I : List String) (s : Server) : Prop where
  online_eq : s.online = I ++ s.current.toList
  fresh : ∀ w ∈ s.current, w ∉ I

theorem tracks_start (I : List String) : Tracks I { online := I } :=
  ⟨by simp, by simp⟩

theorem Tracks.of_same {I : List String} {s s' : Server} (h : Tracks I s)
    (honline : s'.online = s.online) (hcurrent : s'.current = s.current) : Tracks I s' :=
  ⟨by rw [honline, hcurrent]; exact h.online_eq, by rw [hcurrent]; exact h.fresh⟩

/-- A call that keeps to one session at a time keeps the list tracking the sessions. -/
theorem Tracks.call {I : List String} {s : Server} (h : Tracks I s) {c : Call}
    (hc : c.Orderly I s) : Tracks I (s.call c) := by
  cases c with
  | login p =>
    by_cases hv : p.version = protocolVersion
    · -- the new name goes online right after the starting names
      obtain ⟨hnone, hfresh⟩ := hc hv
      have honline : s.online = I := by simpa [hnone] using h.online_eq
      constructor
      · simp [Server.call, login, hv, honline]
      · simpa [Server.call, login, hv] using hfresh
    · -- a refused login changes neither the list nor the current user
      exact h.of_same (by simp [Server.call, login, hv]) (by simp [Server.call, login, hv])
  | say m => exact h.of_same (online_say s m) (current_say s m)
  | disconnect =>
    cases hcur : s.current with
    | none =>
      exact h.of_same (by simp [Server.call, disconnect, hcur])
        (by simp [Server.call, disconnect, hcur])
    | some w =>
      -- the user leaves, and none of the starting names is theirs
      have hw : w ∉ I := h.fresh w (by simp [hcur])
      have honline : s.online = I ++ [w] := by simpa [hcur] using h.online_eq
      refine ⟨?_, by simp [Server.call, disconnect, hcur]⟩
      simp only [Server.call, disconnect, hcur, honline, List.filter_append, Option.toList_none,
        List.append_nil]
      rw [List.filter_eq_self.mpr fun x hx => by simpa using ne_of_mem_of_not_mem hx hw]
      simp

theorem Tracks.run {I : List String} {s : Server} {calls : List Call} (h : Tracks I s)
    (horderly : Orderly I s calls) : Tracks I (s.run calls) := by
  induction calls generalizing s with
  | nil => exact h
  | cons c cs ih =>
    obtain ⟨hc, hcs⟩ := horderly
    rw [run_cons]
    exact ih (h.call hc) hcs

/-- A login with the server's version followed by a disconnect takes the name off the list
altogether, also where it was online before. -/
theorem login_disconnect_online {s : Server} {p : LoginPacket} (hv : p.version = protocolVersion) :
    ((s.login p).disconnect).online = s.online.filter (· ≠ p.name) := by
  simp [login, disconnect, hv, List.filter_append]

/-- The online list tracks the sessions. From a server whose list starts as `I`, through every
run that keeps to one session at a time under names not among `I`, the names online are `I`
followed by the current user, if any. A login with the server's version followed by a
disconnect gives back exactly `I` when the name is not among `I`, and otherwise takes it off
the list altogether. -/
theorem online_tracks_sessions {I : List String} {calls : List Call}
    (h : Orderly I { online := I } calls) :
    (({ online := I } : Server).run calls).online =
        I ++ (({ online := I } : Server).run calls).current.toList ∧
      ∀ p : LoginPacket, p.version = protocolVersion →
        (((({ online := I } : Server).login p).disconnect).online = I.filter (· ≠ p.name) ∧
          ((({ online := I } : Server).login p).disconnect.online = I ↔ p.name ∉ I)) := by
  refine ⟨((tracks_start I).run h).online_eq, fun p hv => ⟨login_disconnect_online hv, ?_⟩⟩
  rw [login_disconnect_online hv]
  -- filtering keeps the list exactly when nothing is taken out
  simp only [List.filter_eq_self, decide_eq_true_eq]
  exact ⟨fun hall hmem => hall _ hmem rfl, fun hnot x hx heq => hnot (heq ▸ hx)⟩

/-- The demonstration's session: "ann" logs in next to the operator, says something and
disconnects, and the list is the operator alone again. -/
theorem ann_session_restores_online :
    Orderly ["Operator"] { online := ["Operator"] }
        [.login ⟨protocolVersion, "ann", ""⟩, .say "hi", .disconnect] ∧
      (({ online := ["Operator"] } : Server).run
        [.login ⟨protocolVersion, "ann", ""⟩, .say "hi", .disconnect]).online =
        ["Operator"] := by
  have h : Orderly ["Operator"] { online := ["Operator"] }
      [.login ⟨protocolVersion, "ann", ""⟩, .say "hi", .disconnect] := by decide
  refine ⟨h, ?_⟩
  rw [(online_tracks_sessions h).1]
  rfl

/-- A user already on the list at the start who logs in and disconnects leaves it empty: the
list is not the starting one once nobody is logged in. -/
theorem starting_name_session_empties_online :
    let s := ({ online := ["ann"] } : Server).run
      [.login ⟨protocolVersion, "ann", ""⟩, .disconnect]
    s.current = none ∧ s.online = [] ∧ s.online ≠ ["ann"] ++ s.current.toList := by
  decide

end Server

end Chat

end RecordWire
