import Telemetry.Proofs.Protocol.Reading
import Telemetry.Proofs.Protocol.Serving
import Telemetry.Protocol.Client

namespace Telemetry.Protocol

open Codec

/-- A call with its arguments, and with the stamps that the client takes at the time. -/
inductive Call
  | recordSingular (user : UInt32) (event : EventId) (stamp : Int64) (payload : Payload)
  | recordAggregate (user : UInt32) (event : EventId) (count stamp : Int64) (payload : Payload)
  | recordSequence (user : UInt32) (event : EventId) (entries : List SequenceEntry)
  | startTimer (flags : UInt32) (event : EventId) (payload : Payload)
  | stopTimer (handle : TimerHandle)
  | getEnabled
  | setEnabled (enabled : Bool)
  | getUploading
  | setUploading (enabled : Bool)
  deriving DecidableEq, Repr

namespace Call

/-- What a call gives that succeeds. -/
inductive Result
  | nothing
  | handle (h : TimerHandle)
  | flag (b : Bool)
  deriving DecidableEq, Repr

/-- The request that the client makes for a call. -/
def request : Call → Request
  | recordSingular user event stamp payload => Client.recordSingular user event stamp payload
  | recordAggregate user event count stamp payload =>
    Client.recordAggregate user event count stamp payload
  | recordSequence user event entries => Client.recordSequence user event entries
  | startTimer flags event payload => Client.startTimer flags event payload
  | stopTimer handle => .stopTimer handle
  | getEnabled => .getEnabled
  | setEnabled enabled => .setEnabled enabled
  | getUploading => .getUploading
  | setUploading enabled => .setUploading enabled

/-- What the client makes of the response to a call. -/
def result (c : Call) (r : Response) : Except RecorderError Result :=
  match c with
  | startTimer .. => (Client.handle r).map .handle
  | getEnabled | getUploading => (Client.flag r).map .flag
  | _ => (Client.unit r).map fun _ => .nothing

def recorded (d : Daemon) (s : Session) :
    Except RecorderError (Session × Daemon) → Except RecorderError Result × Session × Daemon
  | .ok (s, d) => (.ok .nothing, s, d)
  | .error e => (.error e, s, d)

def changed (d : Daemon) (s : Session) :
    Except RecorderError Daemon → Except RecorderError Result × Session × Daemon
  | .ok d => (.ok .nothing, s, d)
  | .error e => (.error e, s, d)

/-- The call made directly, with its own arguments. -/
def direct (d : Daemon) (s : Session) : Call → Except RecorderError Result × Session × Daemon
  | recordSingular user event stamp payload =>
    recorded d s (d.recordSingular s user event.bytes stamp payload)
  | recordAggregate user event count stamp payload =>
    recorded d s (d.recordAggregate s user event.bytes count stamp payload)
  | recordSequence user event entries =>
    recorded d s (d.recordSequence s user event.bytes (entries.map SequenceEntry.point))
  | startTimer flags event payload =>
    match d.startTimer s ⟨flags⟩ event.bytes payload with
    | .ok (handle, d) => (.ok (.handle handle), s, d)
    | .error e => (.error e, s, d)
  | stopTimer handle =>
    ((d.stopTimer s handle).1.map fun _ => .nothing, s, (d.stopTimer s handle).2)
  | getEnabled => (.ok (.flag d.gate.enabled), s, d)
  | setEnabled enabled => changed d s (d.setEnabled s.user enabled)
  | getUploading => (.ok (.flag d.gate.uploadAllowed), s, d)
  | setUploading enabled => changed d s (d.setUploading s.user enabled)

def Result.response : Except RecorderError Result → Response
  | .ok .nothing => .ok
  | .ok (.handle h) => .timer h
  | .ok (.flag b) => .enabled b
  | .error e => .ofError e

end Call

theorem holds_of_frame {r : Request} {bytes : Bytes} (h : Client.frame r = .ok bytes) :
    ∃ body, bytes = Frame.wrap body ∧ body.length ≤ maxFrame ∧ Holds body r := by
  rw [Client.frame] at h
  split at h
  · next hw =>
    cases h
    obtain ⟨hbytes, hlen⟩ := Frame.write_eq_ok hw
    have hr := Request.reads_decoder (Frame.length_lt_of_envelope hlen)
    exact ⟨_, hbytes, hlen, _, rfl, hr.decode⟩
  · cases h

theorem request_unique {r r' : Request} {bytes : Bytes} (h : Client.frame r = .ok bytes)
    (h' : Client.frame r' = .ok bytes) : r = r' := by
  obtain ⟨body, rfl, hfit, hb⟩ := holds_of_frame h
  obtain ⟨body', hw, hfit', hb'⟩ := holds_of_frame h'
  have hf := Frame.front_wrap hfit []
  rw [hw, Frame.front_wrap hfit' []] at hf
  cases hf
  have hr := (Frame.read_eq_ok_iff.2 hb).symm.trans (Frame.read_eq_ok_iff.2 hb')
  cases hr
  rfl

theorem Connection.feed_frame {r : Request} {bytes : Bytes} (h : Client.frame r = .ok bytes)
    (host : Host) (s : Session) :
    (⟨s, []⟩ : Connection).feed host bytes =
      ([(host.dispatch s r).1], some ⟨(host.dispatch s r).2.1, []⟩, (host.dispatch s r).2.2) := by
  obtain ⟨body, rfl, hfit, hb⟩ := holds_of_frame h
  have hs : Frame.split (Frame.wrap body) = ([body], .noHeader, []) := by
    have hw := Frame.split_wrap hfit []
    have hnil : Frame.split [] = ([], .noHeader, []) :=
      Frame.split_of_stops (.noHeader (by decide))
    rwa [List.append_nil, hnil] at hw
  rw [feed, List.nil_append, hs]
  dsimp only
  rw [Host.serveBodies_cons, Host.serveBody_of_holds hb]
  rfl

theorem Link.receive_write {r : Response} {bytes : Bytes}
    (h : Frame.write r.encode = .ok bytes) :
    (connected.deliver bytes).receive = (.ok r, connected) := by
  obtain ⟨rfl, hlen⟩ := Frame.write_eq_ok h
  have hf := Frame.front_wrap hlen []
  have hr := Response.reads_decoder (Frame.length_lt_of_envelope hlen)
  rw [List.append_nil] at hf
  rw [receive, deliver, connected, List.nil_append, hf]
  dsimp only
  rw [Frame.read_envelope, hr.decode]
  rfl

namespace Call

def ofRequest? : Request → Option Call
  | .recordSingular user event stamp carried =>
    (Uuid.ofBytes? event).map (recordSingular user · stamp carried.payload)
  | .recordAggregate user event count stamp carried =>
    (Uuid.ofBytes? event).map (recordAggregate user · count stamp carried.payload)
  | .recordSequence user event entries => (Uuid.ofBytes? event).map (recordSequence user · entries)
  | .startTimer flags event carried =>
    (Uuid.ofBytes? event).map (startTimer flags · carried.payload)
  | .stopTimer handle => some (stopTimer handle)
  | .uploadEvents => none
  | .getEnabled => some getEnabled
  | .setEnabled enabled => some (setEnabled enabled)
  | .getUploading => some getUploading
  | .setUploading enabled => some (setUploading enabled)

theorem ofRequest?_request (c : Call) : ofRequest? c.request = some c := by
  cases c with
  | recordSingular user event stamp payload =>
    simp [request, Client.recordSingular, ofRequest?, Uuid.ofBytes?_bytes]
  | recordAggregate user event count stamp payload =>
    simp [request, Client.recordAggregate, ofRequest?, Uuid.ofBytes?_bytes]
  | recordSequence user event entries =>
    simp [request, Client.recordSequence, ofRequest?, Uuid.ofBytes?_bytes]
  | startTimer flags event payload =>
    simp [request, Client.startTimer, ofRequest?, Uuid.ofBytes?_bytes]
  | stopTimer | getEnabled | setEnabled | getUploading | setUploading => rfl

theorem dispatch_request (c : Call) (h : Host) (s : Session) :
    h.dispatch s c.request = (Result.response (c.direct h.daemon s).1, (c.direct h.daemon s).2.1,
      ⟨(c.direct h.daemon s).2.2, h.collector⟩) := by
  cases c with
  | recordSingular user event stamp payload =>
    rw [request, Client.recordSingular, Host.dispatch, Host.execute, Carried.payload_ofPayload,
      direct]
    cases h.daemon.recordSingular s user event.bytes stamp payload <;> rfl
  | recordAggregate user event count stamp payload =>
    rw [request, Client.recordAggregate, Host.dispatch, Host.execute, Carried.payload_ofPayload,
      direct]
    cases h.daemon.recordAggregate s user event.bytes count stamp payload <;> rfl
  | recordSequence user event entries =>
    rw [request, Client.recordSequence, Host.dispatch, Host.execute, direct]
    cases h.daemon.recordSequence s user event.bytes (entries.map SequenceEntry.point) <;> rfl
  | startTimer flags event payload =>
    rw [request, Client.startTimer, Host.dispatch, Host.execute, Carried.payload_ofPayload, direct]
    cases h.daemon.startTimer s ⟨flags⟩ event.bytes payload <;> rfl
  | stopTimer handle =>
    rw [request, Host.dispatch, Host.execute, direct]
    cases h.daemon.stopTimer s handle with
    | mk r d => cases r <;> rfl
  | getEnabled | getUploading => rfl
  | setEnabled enabled =>
    rw [request, Host.dispatch, Host.execute, direct]
    cases h.daemon.setEnabled s.user enabled <;> rfl
  | setUploading enabled =>
    rw [request, Host.dispatch, Host.execute, direct]
    cases h.daemon.setUploading s.user enabled <;> rfl

theorem result_response (c : Call) (d : Daemon) (s : Session) :
    c.result (Result.response (c.direct d s).1) =
      (c.direct d s).1.mapError fun e => e.reply.error := by
  cases c with
  | recordSingular user event stamp payload =>
    rw [direct]
    cases d.recordSingular s user event.bytes stamp payload <;> rfl
  | recordAggregate user event count stamp payload =>
    rw [direct]
    cases d.recordAggregate s user event.bytes count stamp payload <;> rfl
  | recordSequence user event entries =>
    rw [direct]
    cases d.recordSequence s user event.bytes (entries.map SequenceEntry.point) <;> rfl
  | startTimer flags event payload =>
    rw [direct]
    cases d.startTimer s ⟨flags⟩ event.bytes payload <;> rfl
  | stopTimer handle =>
    rw [direct]
    cases (d.stopTimer s handle).1 <;> rfl
  | getEnabled | getUploading => rfl
  | setEnabled enabled =>
    rw [direct]
    cases d.setEnabled s.user enabled <;> rfl
  | setUploading enabled =>
    rw [direct]
    cases d.setUploading s.user enabled <;> rfl

theorem map_point_ofPayload (points : List (Int64 × Payload)) :
    (points.map fun p => SequenceEntry.ofPayload p.1 p.2).map SequenceEntry.point = points := by
  induction points with
  | nil => rfl
  | cons p points ih =>
    rw [List.map_cons, List.map_cons, ih, SequenceEntry.point, SequenceEntry.ofPayload,
      Carried.payload_ofPayload]

/-- A call whose request fits a frame does to the session and the daemon what it does directly, and
gets the response that tells how it went. If that fits a frame too, the client gets the result, or
an error of the same kind. No other call has the same frame, and the payloads of a sequence, present
or absent, are those it was made of. -/
theorem wire_agrees {c : Call} {bytes : Bytes} (hw : Client.frame c.request = .ok bytes) {h : Host}
    {s s' : Session} {d' : Daemon} {outcome : Except RecorderError Result}
    (hd : c.direct h.daemon s = (outcome, s', d')) :
    (⟨s, []⟩ : Connection).feed h bytes =
        ([Result.response outcome], some ⟨s', []⟩, ⟨d', h.collector⟩) ∧
      (∀ reply, Frame.write (Result.response outcome).encode = .ok reply →
        ∃ answer, (Link.connected.deliver reply).receive = (.ok answer, .connected) ∧
          (c.result answer).mapError RecorderError.kind = outcome.mapError RecorderError.kind) ∧
      (∀ c' : Call, Client.frame c'.request = .ok bytes → c' = c) ∧
      ∀ user event points,
        c = recordSequence user event (points.map fun p => .ofPayload p.1 p.2) →
        recorded h.daemon s (h.daemon.recordSequence s user event.bytes points) =
          (outcome, s', d') := by
  refine ⟨?_, ?_, ?_, ?_⟩
  · rw [Connection.feed_frame hw, dispatch_request, hd]
  · intro reply hreply
    refine ⟨_, Link.receive_write hreply, ?_⟩
    have hr := result_response c h.daemon s
    rw [hd] at hr
    rw [hr]
    cases outcome with
    | ok => rfl
    | error e => exact congrArg Except.error e.kind_error_reply
  · -- the request in the frame tells which call it was made for
    intro c' hw'
    have hreq := congrArg ofRequest? (request_unique hw' hw)
    rw [ofRequest?_request, ofRequest?_request] at hreq
    exact Option.some.inj hreq
  · rintro user event points rfl
    rw [direct, map_point_ofPayload] at hd
    exact hd

def nested : Call :=
  recordSequence 1000 .nil
    [.ofPayload 5 (some (.array [.tuple [.text "a".toList, .double 1], .bytes []])),
     .ofPayload 6 none, .ofPayload 7 (some (.bool false))]

theorem wire_agrees_nested :
    ∃ bytes d s' d', Client.frame nested.request = .ok bytes ∧
      Daemon.assemble .standard .empty (.start .epoch) = .ok d ∧
      nested.direct (d.turn true) (.fresh ⟨1⟩ 1000) = (.ok .nothing, s', d') ∧
      (⟨.fresh ⟨1⟩ 1000, []⟩ : Connection).feed ⟨d.turn true, .fresh⟩ bytes =
        ([.ok], some ⟨s', []⟩, ⟨d', .fresh⟩) ∧
      d'.buffer.records = [.sequence ⟨1000, .nil,
        [⟨5, some (.array [.tuple [.text "a".toList, .double 1], .bytes []])⟩, ⟨6, none⟩,
         ⟨7, some (.bool false)⟩]⟩] := by
  have hw : Client.frame nested.request =
      .ok (Frame.wrap (Frame.envelope nested.request.encode)) := by
    rw [Client.frame, Frame.write, if_neg (by decide +kernel)]
  have ha : Daemon.assemble .standard .empty (.start .epoch) = .ok _ := rfl
  refine ⟨_, _, _, _, hw, ha, rfl, ?_, ?_⟩
  · exact (wire_agrees hw rfl).1
  · decide

end Call

end Telemetry.Protocol
