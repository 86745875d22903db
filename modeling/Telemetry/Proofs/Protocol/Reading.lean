import Telemetry.Proofs.Event.Reading
import Telemetry.Protocol.Message

namespace Telemetry

open Codec Text

theorem ErrorKind.ofTag_tag (k : ErrorKind) : ofTag k.tag = k := by
  cases k <;> rfl

theorem ErrorKind.tag_lt (k : ErrorKind) : k.tag < 8 := by
  cases k <;> decide

theorem ErrorReply.reads_decoder {r : ErrorReply} (hs : Utf8.size r.message.toList < capacity 8) :
    Reads decoder r.encode r := by
  obtain ⟨kind, message, handle⟩ := r
  have hhandle : Reads (Decoder.option Decoder.uint64)
      (encodeOption (fun h : TimerHandle => encodeUInt64 h.number) handle)
      (handle.map TimerHandle.number) := by
    cases handle with
    | none => exact Reads.optionNone _
    | some h => exact Reads.optionSome (Reads.uint64 h.number)
  rw [encode, List.append_assoc]
  refine (Reads.tag 8 kind.tag kind.tag_lt (by decide)).bind ((Reads.text hs).bind
    (hhandle.finish ?_))
  have hr : (⟨.ofTag kind.tag, String.ofList message.toList,
      (handle.map TimerHandle.number).map TimerHandle.mk⟩ : ErrorReply) =
      ⟨kind, message, handle⟩ := by
    rw [ErrorKind.ofTag_tag, String.ofList_toList]
    cases handle <;> rfl
  rw [hr]
  exact Reads.pure _

theorem ErrorReply.size_message_le (r : ErrorReply) :
    Utf8.size r.message.toList ≤ r.encode.length := by
  simp only [encode, encodeText, List.length_append, Utf8.length_encode]
  omega

namespace Protocol

theorem Carried.reads_decoder {c : Carried} (hs : c.encode.length < capacity 8) :
    Reads decoder c.encode c := by
  rw [encode, List.length_append, Value.length_encode] at hs
  have hmeasured : c.value.Measured := c.value.measured_of_size (by omega)
  exact (Reads.boolean c.present).bind (Value.reads_decoder hmeasured).map

theorem SequenceEntry.reads_decoder {e : SequenceEntry} (hs : e.encode.length < capacity 8) :
    Reads decoder e.encode e := by
  rw [encode, List.length_append] at hs
  exact (Reads.int64 e.stamp).bind (Carried.reads_decoder (by omega)).map

theorem SequenceEntry.reads_list {es : List SequenceEntry}
    (hs : (encodeList encode es).length < capacity 8) :
    Reads (Decoder.list decoder) (encodeList encode es) es := by
  refine Reads.list (listed_of_size hs (fun _ => rfl) (fun e => ?_) fun e =>
    SequenceEntry.reads_decoder)
  rw [encode, List.length_append, encodeInt64, length_le]
  omega

namespace Request

theorem reads_decoder {r : Request} (hs : r.encode.length < capacity 8) :
    Reads decoder r.encode r := by
  cases r with
  | recordSingular user event stamp carried =>
    simp only [encode, encodeBytes, List.length_append] at hs
    simp only [encode, List.append_assoc]
    refine (Reads.tag 10 0 (by decide) (by decide)).bind ((Reads.uint32 user).bind
      ((Reads.counted (by omega)).bind ((Reads.int64 stamp).bind ?_)))
    exact (Carried.reads_decoder (by omega)).map
  | recordAggregate user event count stamp carried =>
    simp only [encode, encodeBytes, List.length_append] at hs
    simp only [encode, List.append_assoc]
    refine (Reads.tag 10 1 (by decide) (by decide)).bind ((Reads.uint32 user).bind
      ((Reads.counted (by omega)).bind ((Reads.int64 count).bind ((Reads.int64 stamp).bind ?_))))
    exact (Carried.reads_decoder (by omega)).map
  | recordSequence user event entries =>
    simp only [encode, encodeBytes, List.length_append] at hs
    simp only [encode, List.append_assoc]
    refine (Reads.tag 10 2 (by decide) (by decide)).bind ((Reads.uint32 user).bind
      ((Reads.counted (by omega)).bind ?_))
    exact (SequenceEntry.reads_list (by omega)).map
  | startTimer flags event carried =>
    simp only [encode, encodeBytes, List.length_append] at hs
    simp only [encode, List.append_assoc]
    refine (Reads.tag 10 3 (by decide) (by decide)).bind ((Reads.uint32 flags).bind
      ((Reads.counted (by omega)).bind ?_))
    exact (Carried.reads_decoder (by omega)).map
  | stopTimer handle =>
    exact (Reads.tag 10 4 (by decide) (by decide)).bind (Reads.uint64 handle.number).map
  | uploadEvents => exact (Reads.tag 10 5 (by decide) (by decide)).finish (Reads.pure _)
  | getEnabled => exact (Reads.tag 10 6 (by decide) (by decide)).finish (Reads.pure _)
  | setEnabled enabled =>
    exact (Reads.tag 10 7 (by decide) (by decide)).bind (Reads.boolean enabled).map
  | getUploading => exact (Reads.tag 10 8 (by decide) (by decide)).finish (Reads.pure _)
  | setUploading enabled =>
    exact (Reads.tag 10 9 (by decide) (by decide)).bind (Reads.boolean enabled).map

end Request

namespace Response

theorem reads_error (reply : ErrorReply) (hs : Utf8.size reply.message.toList < capacity 8) :
    Reads decoder (error reply).encode (error reply) :=
  (Reads.tag 5 4 (by decide) (by decide)).bind (ErrorReply.reads_decoder hs).map

theorem reads_decoder {r : Response} (hs : r.encode.length < capacity 8) :
    Reads decoder r.encode r := by
  cases r with
  | ok => exact (Reads.tag 5 0 (by decide) (by decide)).finish (Reads.pure _)
  | timer handle =>
    exact (Reads.tag 5 1 (by decide) (by decide)).bind (Reads.uint64 handle.number).map
  | enabled flag => exact (Reads.tag 5 2 (by decide) (by decide)).bind (Reads.boolean flag).map
  | uploaded events tallies =>
    rw [encode, List.append_assoc]
    exact (Reads.tag 5 3 (by decide) (by decide)).bind
      ((Reads.uint64 events).bind (Reads.uint64 tallies).map)
  | error reply =>
    rw [encode, List.length_append] at hs
    have hmessage := reply.size_message_le
    exact reads_error reply (by omega)

end Response

end Protocol

end Telemetry
