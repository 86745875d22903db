import Telemetry.Uuid

namespace Telemetry.Upload.Http

open Text

def clientVersion : List Char := "2".toList

def baseUrl (server : List Char) : List Char :=
  (server.reverse.dropWhile (· = '/')).reverse

def requestUrl (server : List Char) (batch : Uuid) : List Char :=
  baseUrl server ++ '/' :: clientVersion ++ '/' :: batch.toChars

def reasons : List (Nat × String) :=
  [(100, "Continue"), (101, "Switching Protocols"), (102, "Processing"), (200, "OK"),
   (201, "Created"), (202, "Accepted"), (203, "Non Authoritative Information"),
   (204, "No Content"), (205, "Reset Content"), (206, "Partial Content"), (207, "Multi-Status"),
   (208, "Already Reported"), (226, "IM Used"), (300, "Multiple Choices"),
   (301, "Moved Permanently"), (302, "Found"), (303, "See Other"), (304, "Not Modified"),
   (305, "Use Proxy"), (307, "Temporary Redirect"), (308, "Permanent Redirect"),
   (400, "Bad Request"), (401, "Unauthorized"), (402, "Payment Required"), (403, "Forbidden"),
   (404, "Not Found"), (405, "Method Not Allowed"), (406, "Not Acceptable"),
   (407, "Proxy Authentication Required"), (408, "Request Timeout"), (409, "Conflict"),
   (410, "Gone"), (411, "Length Required"), (412, "Precondition Failed"),
   (413, "Payload Too Large"), (414, "URI Too Long"), (415, "Unsupported Media Type"),
   (416, "Range Not Satisfiable"), (417, "Expectation Failed"), (418, "I'm a teapot"),
   (421, "Misdirected Request"), (422, "Unprocessable Entity"), (423, "Locked"),
   (424, "Failed Dependency"), (426, "Upgrade Required"),
   (428, "Precondition Required"), (429, "Too Many Requests"),
   (431, "Request Header Fields Too Large"), (451, "Unavailable For Legal Reasons"),
   (500, "Internal Server Error"), (501, "Not Implemented"), (502, "Bad Gateway"),
   (503, "Service Unavailable"), (504, "Gateway Timeout"), (505, "HTTP Version Not Supported"),
   (506, "Variant Also Negotiates"), (507, "Insufficient Storage"), (508, "Loop Detected"),
   (510, "Not Extended"), (511, "Network Authentication Required")]

def reason (status : Nat) : String := (reasons.lookup status).getD "<unknown status code>"

inductive SendError
  | unreachable
  | status (code : Nat)
  deriving DecidableEq, Repr

def SendError.message : SendError → String
  | .unreachable => "Failed to send batch"
  | .status code => "Collector returned HTTP " ++ toString code ++ " " ++ reason code

/-- Whether a status answers a request. Below 200 it only announces an answer, a switch of protocols
apart, and it has three digits. -/
def isAnswer (code : Nat) : Bool := code = 101 ∨ (200 ≤ code ∧ code < 1000)

def outcome (status : Option Nat) : Except SendError Unit :=
  match status.filter isAnswer with
  | none => .error .unreachable
  | some code => if 200 ≤ code ∧ code < 300 then .ok () else .error (.status code)

structure Request where
  line : List Char
  encoding : String
  contentType : String
  body : List UInt8

def request (basePath : List Char) (batch : Uuid) (body : List UInt8) : Request :=
  { line := "PUT ".toList ++ requestUrl basePath batch ++ " HTTP/1.1".toList
    encoding := "gzip"
    contentType := "application/octet-stream"
    body := body }

end Telemetry.Upload.Http
