import Telemetry.Session
import Telemetry.StorageError

namespace Telemetry

inductive RecorderError
  | disabled
  | uploadingDisabled
  | unauthorized (action : String)
  | unknownHandle (handle : TimerHandle)
  | invalidArgument (text : String)
  | storage (text : String)
  | upload (text : String)
  | protocol (text : String)
  deriving DecidableEq, Repr

inductive ErrorKind
  | metricsDisabled
  | uploadingDisabled
  | unauthorized
  | unknownHandle
  | invalidArgument
  | storageFailure
  | uploadFailed
  | protocol
  deriving DecidableEq, Repr

def ErrorKind.all : List ErrorKind :=
  [.metricsDisabled, .uploadingDisabled, .unauthorized, .unknownHandle, .invalidArgument,
   .storageFailure, .uploadFailed, .protocol]

def ErrorKind.name : ErrorKind → String
  | .metricsDisabled => "MetricsDisabled"
  | .uploadingDisabled => "UploadingDisabled"
  | .unauthorized => "Unauthorized"
  | .unknownHandle => "UnknownHandle"
  | .invalidArgument => "InvalidArgument"
  | .storageFailure => "StorageFailure"
  | .uploadFailed => "UploadFailed"
  | .protocol => "Protocol"

namespace RecorderError

def ofStorage (e : StorageError) : RecorderError := .storage e.message

def kind : RecorderError → ErrorKind
  | disabled => .metricsDisabled
  | uploadingDisabled => .uploadingDisabled
  | unauthorized _ => .unauthorized
  | unknownHandle _ => .unknownHandle
  | invalidArgument _ => .invalidArgument
  | storage _ => .storageFailure
  | upload _ => .uploadFailed
  | protocol _ => .protocol

def message : RecorderError → String
  | disabled => "Could not record or upload events because the metrics system is disabled"
  | uploadingDisabled => "Could not upload events because uploading is disabled"
  | unauthorized action => "caller is not authorized to " ++ action
  | unknownHandle handle => "unknown timer handle " ++ handle.toString
  | invalidArgument text => "invalid argument: " ++ text
  | storage text => "storage failure: " ++ text
  | upload text => "upload failed: " ++ text
  | protocol text => "protocol error: " ++ text

end RecorderError

structure ErrorReply where
  kind : ErrorKind
  message : String
  handle : Option TimerHandle
  deriving DecidableEq, Repr

def RecorderError.handle? : RecorderError → Option TimerHandle
  | .unknownHandle handle => some handle
  | _ => none

def RecorderError.reply (e : RecorderError) : ErrorReply := ⟨e.kind, e.message, e.handle?⟩

def ErrorReply.error (r : ErrorReply) : RecorderError :=
  match r.kind with
  | .metricsDisabled => .disabled
  | .uploadingDisabled => .uploadingDisabled
  | .unauthorized => .unauthorized r.message
  | .unknownHandle => .unknownHandle (r.handle.getD ⟨0⟩)
  | .invalidArgument => .invalidArgument r.message
  | .storageFailure => .storage r.message
  | .uploadFailed => .upload r.message
  | .protocol => .protocol r.message

theorem RecorderError.kind_error_reply (e : RecorderError) : e.reply.error.kind = e.kind := by
  cases e <;> rfl

end Telemetry
