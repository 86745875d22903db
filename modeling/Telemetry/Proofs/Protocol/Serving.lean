import Telemetry.Proofs.Daemon.Departure
import Telemetry.Proofs.Protocol.Stream
/-!
A connection from its first octet to the end. Each whole frame gets one answer, in order. A body
that holds no request is refused and changes nothing, so that the frames behind it are served as if
it had not come. When the reading ends, so do the timers of the client. A payload is read to any
depth; that nesting deep enough exhausts the native stack is left out.
-/

namespace Telemetry

open Codec Upload

namespace Protocol

/-- A body holds a request if it carries version 1, and the octets behind that begin with the
request. -/
def Holds (body : Bytes) (r : Request) : Prop :=
  ∃ octets, body = Frame.envelope octets ∧ Request.decoder.decode octets = .ok r

namespace Frame

variable {α : Type} {d : Decoder α} {body : Bytes}

theorem recoverable_of_read {e : FrameError} (h : read d body = .error e) :
    e.recoverable = true := by
  rw [read] at h
  split at h
  · cases h
    rfl
  · split at h
    · split at h
      · cases h
      · cases h
        rfl
    · cases h
      rfl

end Frame

/-- Bodies are answered one after the other. One that holds a request has it executed; any other is
refused, and neither the session nor the host changes. -/
inductive Conversation : Host → Session → List Bytes → List Response → Session → Host → Prop
  | ended (h : Host) (s : Session) : Conversation h s [] [] s h
  | served {h h' : Host} {s s' : Session} {body : Bytes} {rest : List Bytes} {r : Request}
      {answers : List Response} (hb : Holds body r)
      (more : Conversation (h.dispatch s r).2.2 (h.dispatch s r).2.1 rest answers s' h') :
      Conversation h s (body :: rest) ((h.dispatch s r).1 :: answers) s' h'
  | refused {h h' : Host} {s s' : Session} {body : Bytes} {rest : List Bytes} {e : FrameError}
      {answers : List Response} (hb : ¬∃ r, Holds body r) (he : e.recoverable = true)
      (more : Conversation h s rest answers s' h') :
      Conversation h s (body :: rest) (.ofError (.protocol e.message) :: answers) s' h'

namespace Host

variable {h h' : Host} {s s' : Session} {body : Bytes} {r : Request}

theorem serveBody_of_holds (hb : Holds body r) : h.serveBody s body = h.dispatch s r := by
  rw [serveBody, Frame.read_eq_ok_iff.2 hb]

theorem serveBody_of_not_holds (hb : ¬∃ r, Holds body r) :
    ∃ e : FrameError, e.recoverable = true ∧
      h.serveBody s body = (.ofError (.protocol e.message), s, h) := by
  cases hr : Frame.read Request.decoder body with
  | ok r => exact absurd ⟨r, Frame.read_eq_ok_iff.1 hr⟩ hb
  | error e => exact ⟨e, Frame.recoverable_of_read hr, by rw [serveBody, hr]⟩

theorem serveBodies_cons (h : Host) (s : Session) (body : Bytes) (rest : List Bytes) :
    h.serveBodies s (body :: rest) =
      ((h.serveBody s body).1 ::
          ((h.serveBody s body).2.2.serveBodies (h.serveBody s body).2.1 rest).1,
        ((h.serveBody s body).2.2.serveBodies (h.serveBody s body).2.1 rest).2) := rfl

theorem serveBodies_append (h : Host) (s : Session) (before after : List Bytes) :
    h.serveBodies s (before ++ after) =
      ((h.serveBodies s before).1 ++
          ((h.serveBodies s before).2.2.serveBodies (h.serveBodies s before).2.1 after).1,
        ((h.serveBodies s before).2.2.serveBodies (h.serveBodies s before).2.1 after).2) := by
  induction before generalizing h s with
  | nil => rfl
  | cons body before ih =>
    rw [List.cons_append, serveBodies_cons, serveBodies_cons, ih]
    rfl

theorem length_serveBodies (h : Host) (s : Session) (bodies : List Bytes) :
    (h.serveBodies s bodies).1.length = bodies.length := by
  induction bodies generalizing h s with
  | nil => rfl
  | cons body bodies ih => rw [serveBodies_cons, List.length_cons, List.length_cons, ih]

theorem conversation_serveBodies (h : Host) (s : Session) (bodies : List Bytes) :
    Conversation h s bodies (h.serveBodies s bodies).1 (h.serveBodies s bodies).2.1
      (h.serveBodies s bodies).2.2 := by
  induction bodies generalizing h s with
  | nil => exact .ended h s
  | cons body bodies ih =>
    rw [serveBodies_cons]
    by_cases hb : ∃ r, Holds body r
    · obtain ⟨r, hr⟩ := hb
      rw [serveBody_of_holds hr]
      exact .served hr (ih _ _)
    · obtain ⟨e, he, hs⟩ := serveBody_of_not_holds (h := h) (s := s) hb
      rw [hs]
      exact .refused hb he (ih h s)

theorem serve_eq (h : Host) (s : Session) (stream : Bytes) :
    h.serve s stream = ((h.serveBodies s (Frame.split stream).1).1,
      (h.serveBodies s (Frame.split stream).1).2.1,
      (h.serveBodies s (Frame.split stream).1).2.2.hangUp
        (h.serveBodies s (Frame.split stream).1).2.1) := rfl

/-- The answers around a body that holds no request are those that there would be without it. -/
theorem serveBodies_around (h : Host) (s : Session) (before after : List Bytes)
    (hb : ¬∃ r, Holds body r) :
    ∃ reply answers, reply.kind = .protocol ∧ answers.length = before.length ∧
      ∃ more, h.serveBodies s (before ++ body :: after) =
          (answers ++ .error reply :: more, (h.serveBodies s (before ++ after)).2) ∧
        (h.serveBodies s (before ++ after)).1 = answers ++ more := by
  rw [serveBodies_append, serveBodies_append]
  have hlen := length_serveBodies h s before
  generalize h.serveBodies s before = first at hlen ⊢
  obtain ⟨e, -, hs⟩ := serveBody_of_not_holds (h := first.2.2) (s := first.2.1) hb
  refine ⟨(RecorderError.protocol e.message).reply, first.1, rfl, hlen, _, ?_, rfl⟩
  rw [serveBodies_cons, hs]
  rfl

theorem client_recorded {result : Except RecorderError (Session × Daemon)}
    (hr : ∀ s' d, result = .ok (s', d) → s'.client = s.client) :
    (h.recorded s result).2.1.client = s.client := by
  cases result with
  | ok after => exact hr after.1 after.2 rfl
  | error e => rfl

theorem client_dispatch (h : Host) (s : Session) (r : Request) :
    (h.dispatch s r).2.1.client = s.client := by
  rw [Daemon.snd_dispatch]
  cases r with
  | recordSingular =>
    exact client_recorded fun _ _ hr => (Daemon.push_of_recordSingular hr).2.1
  | recordAggregate =>
    exact client_recorded fun _ _ hr => (Daemon.push_of_recordAggregate hr).2.1
  | recordSequence =>
    exact client_recorded fun _ _ hr => (Daemon.push_of_recordSequence hr).2.1
  | startTimer =>
    unfold execute
    dsimp only
    split <;> rfl
  | setEnabled | setUploading =>
    unfold execute changed
    dsimp only
    split <;> rfl
  | stopTimer | uploadEvents | getEnabled | getUploading => rfl

end Host

namespace Conversation

variable {h h' : Host} {s s' : Session} {bodies : List Bytes} {answers : List Response}

theorem client_eq (hc : Conversation h s bodies answers s' h') : s'.client = s.client := by
  induction hc with
  | ended => rfl
  | served _ _ ih => rw [ih, Host.client_dispatch]
  | refused _ _ _ ih => exact ih

theorem tidy (hc : Conversation h s bodies answers s' h') (ht : h.daemon.Tidy) :
    h'.daemon.Tidy := by
  induction hc with
  | ended => exact ht
  | served _ _ ih => exact ih (ht.dispatch _ _ _)
  | refused _ _ _ ih => exact ih ht

end Conversation

namespace Connection

/-- A connection from its beginning to its end: the stream comes in piece by piece, and what comes
in after the connection has ended is not read. -/
def converse (c : Connection) (h : Host) : List Bytes → List Response × Host
  | [] => c.finish h []
  | piece :: pieces =>
    match c.feed h piece with
    | (answers, some c, h) => (answers ++ (c.converse h pieces).1, (c.converse h pieces).2)
    | (answers, none, h) => (answers, h)

/-- How the stream is cut does not matter, and the session ends once. -/
theorem converse_eq (c : Connection) (h : Host) (pieces : List Bytes) :
    c.converse h pieces = ((h.serve c.session (c.pending ++ pieces.flatten)).1,
      (h.serve c.session (c.pending ++ pieces.flatten)).2.2) := by
  induction pieces generalizing c h with
  | nil =>
    rw [converse, finish, feed, List.flatten_nil, Host.serve_eq]
    generalize Frame.split (c.pending ++ []) = parts
    obtain ⟨bodies, last, left⟩ := parts
    cases last <;> rfl
  | cons piece pieces ih =>
    rw [converse, feed, List.flatten_cons, ← List.append_assoc, Host.serve_eq]
    have hd := Frame.divides_split (c.pending ++ piece)
    generalize Frame.split (c.pending ++ piece) = parts at hd ⊢
    obtain ⟨bodies, last, left⟩ := parts
    have hwhole : Frame.split (c.pending ++ piece ++ pieces.flatten) =
        (bodies ++ (Frame.split (left ++ pieces.flatten)).1,
          (Frame.split (left ++ pieces.flatten)).2) := by
      rw [hd.joined, List.append_assoc, Frame.split_flatMap hd.fits]
    rw [hwhole]
    cases last with
    | tooLarge size =>
      -- the pieces to come are not read, and the whole stream stops at the same length
      have hs : Frame.split (left ++ pieces.flatten) =
          ([], .tooLarge size, left ++ pieces.flatten) :=
        Frame.split_of_stops (hd.stops.append _)
      rw [hs, List.append_nil]
    | noHeader | cut =>
      dsimp only
      rw [ih, Host.serve_eq, Host.serveBodies_append]

theorem converse_opened (client : ClientId) (user : UInt32) (h : Host) {pieces : List Bytes}
    {bodies : List Bytes} {last : Frame.End} {left : Bytes}
    (hd : Frame.Divides pieces.flatten bodies last left) :
    (opened client user).converse h pieces = ((h.serveBodies (.fresh client user) bodies).1,
      (h.serveBodies (.fresh client user) bodies).2.2.hangUp
        (h.serveBodies (.fresh client user) bodies).2.1) := by
  have hs := Frame.divides_iff.1 hd
  rw [converse_eq, opened, List.nil_append, Host.serve_eq, hs]

/-- Octets of any kind come in on a new connection to a daemon that has been through anything. They
divide into whole frames and an end in one way only (`Frame.divides_iff`). The bodies are answered
in order, each once. Without the frame of a body that holds no request all else is the same. At the
end the client's timers are swept, once. -/
theorem frames_answered {config : Daemon.Config} {disk : Daemon.Disk} {clock : Clock} {d : Daemon}
    (ha : Daemon.assemble config disk clock = .ok d) (hd : config.discards = true)
    (acts : List Act) (c : Collector) (client : ClientId) (user : UInt32) (pieces : List Bytes) :
    let h : Host := ⟨((Site.opened d).run acts).daemon, c⟩
    ∃ bodies last left answers s' h',
      Frame.Divides pieces.flatten bodies last left ∧
      Conversation h (.fresh client user) bodies answers s' h' ∧
      (opened client user).converse h pieces = (answers, h'.hangUp s') ∧
      answers.length = bodies.length ∧
      (∀ before bad after, bodies = before ++ bad :: after → (¬∃ r, Holds bad r) →
        ∃ first reply more, answers = first ++ .error reply :: more ∧
          first.length = before.length ∧ reply.kind = .protocol ∧
          (opened client user).converse h [(before ++ after).flatMap Frame.wrap ++ left] =
            (first ++ more, h'.hangUp s')) ∧
      Daemon.Departs h'.daemon client (h'.hangUp s').daemon ∧
      (h'.hangUp s').collector = h'.collector := by
  intro h
  have hdiv := Frame.divides_split pieces.flatten
  generalize Frame.split pieces.flatten = parts at hdiv
  obtain ⟨bodies, last, left⟩ := parts
  have hc := Host.conversation_serveBodies h (.fresh client user) bodies
  have hconv := converse_opened client user h hdiv
  have hlen := Host.length_serveBodies h (.fresh client user) bodies
  refine ⟨bodies, last, left, _, _, _, hdiv, hc, hconv, hlen, ?_, ?_, rfl⟩
  · rintro before bad after rfl hbad
    obtain ⟨reply, first, hk, hfirst, more, hwith, hwithout⟩ :=
      Host.serveBodies_around h (.fresh client user) before after hbad
    have hrest : Frame.Divides [(before ++ after).flatMap Frame.wrap ++ left].flatten
        (before ++ after) last left := by
      refine ⟨by simp, fun body hb => hdiv.fits body ?_, hdiv.stops⟩
      rcases List.mem_append.1 hb with hb | hb
      · exact List.mem_append_left _ hb
      · exact List.mem_append_right _ (List.mem_cons_of_mem bad hb)
    refine ⟨first, reply, more, by rw [hwith], hfirst, hk, ?_⟩
    rw [converse_opened client user h hrest, hwith, hwithout]
  · have ht := hc.tidy (Site.tidy_run ha hd acts)
    have hclient := hc.client_eq
    change Daemon.Departs _ client (Daemon.disconnect _ _)
    rw [hclient]
    exact ht.departs client

def hostile : List Bytes :=
  let start := Frame.wrap (Frame.envelope
    (Request.startTimer 0 (List.replicate 16 3) ⟨false, .bool false⟩).encode)
  [start.take 6, start.drop 6 ++ Frame.wrap [1] ++ Frame.wrap (le 4 2 ++ Request.getEnabled.encode),
   Frame.wrap (Frame.envelope (encodeTag 99)) ++
     Frame.wrap (Frame.envelope Request.getEnabled.encode),
   be 4 (maxFrame + 1) ++ [7], start]

theorem frames_answered_hostile :
    ∃ d, Daemon.assemble .standard .empty (.start .epoch) = .ok d ∧
      Daemon.Config.standard.discards = true ∧
      let h : Host :=
        ⟨((Site.opened d).run [.request (.fresh ⟨0⟩ 0) (.setEnabled true)]).daemon, .fresh⟩
      ∃ bodies last left answers s' h',
        Frame.Divides hostile.flatten bodies last left ∧
        Conversation h (.fresh ⟨1⟩ 1000) bodies answers s' h' ∧
        (opened ⟨1⟩ 1000).converse h hostile = (answers, h'.hangUp s') ∧
        answers.map (fun | .error reply => some reply.kind | _ => none) =
          [none, some .protocol, some .protocol, some .protocol, none] ∧
        Daemon.Departs h'.daemon ⟨1⟩ (h'.hangUp s').daemon ∧
        (h'.hangUp s').daemon.tally.rows.length = 2 := by
  have ha : Daemon.assemble .standard .empty (.start .epoch) = .ok _ := rfl
  obtain ⟨bodies, last, left, answers, s', h', hdiv, hconv, heq, -, -, hdep, -⟩ :=
    frames_answered ha rfl [.request (.fresh ⟨0⟩ 0) (.setEnabled true)] .fresh ⟨1⟩ 1000 hostile
  have hanswers : answers = _ := (congrArg Prod.fst heq).symm
  have hhost : h'.hangUp s' = _ := (congrArg Prod.snd heq).symm
  refine ⟨_, ha, rfl, bodies, last, left, answers, s', h', hdiv, hconv, heq, ?_, hdep, ?_⟩
  · rw [hanswers]
    decide +kernel
  · rw [hhost]
    decide +kernel

end Connection

end Protocol

end Telemetry
