import SolidWorkshop.Library.Client
import SolidWorkshop.Url

/-!
# The client that follows directions

The client of the running service: it brings an address into normal form, requests it, and goes on
to the places that answers direct to, up to a number of them.
-/

namespace SolidWorkshop.Library

/-- The phrases of the statuses. -/
def statusPhrases : List (Int × String) :=
  [(100, "Continue"), (101, "Switching Protocols"), (102, "Processing"), (103, "Early Hints"),
   (200, "OK"), (201, "Created"), (202, "Accepted"), (203, "Non-Authoritative Information"),
   (204, "No Content"), (205, "Reset Content"), (206, "Partial Content"), (207, "Multi-Status"),
   (208, "Already Reported"), (226, "IM Used"), (300, "Multiple Choices"),
   (301, "Moved Permanently"), (302, "Found"), (303, "See Other"), (304, "Not Modified"),
   (305, "Use Proxy"), (307, "Temporary Redirect"), (308, "Permanent Redirect"),
   (400, "Bad Request"), (401, "Unauthorized"), (402, "Payment Required"), (403, "Forbidden"),
   (404, "Not Found"), (405, "Method Not Allowed"), (406, "Not Acceptable"),
   (407, "Proxy Authentication Required"), (408, "Request Timeout"), (409, "Conflict"),
   (410, "Gone"), (411, "Length Required"), (412, "Precondition Failed"),
   (413, "Request Entity Too Large"), (414, "Request-URI Too Long"),
   (415, "Unsupported Media Type"), (416, "Requested Range Not Satisfiable"),
   (417, "Expectation Failed"), (418, "I'm a teapot"), (421, "Misdirected Request"),
   (422, "Unprocessable Entity"), (423, "Locked"), (424, "Failed Dependency"),
   (425, "Too Early"), (426, "Upgrade Required"), (428, "Precondition Required"),
   (429, "Too Many Requests"), (431, "Request Header Fields Too Large"),
   (451, "Unavailable For Legal Reasons"), (500, "Internal Server Error"),
   (501, "Not Implemented"), (502, "Bad Gateway"), (503, "Service Unavailable"),
   (504, "Gateway Timeout"), (505, "HTTP Version Not Supported"),
   (506, "Variant Also Negotiates"), (507, "Insufficient Storage"), (508, "Loop Detected"),
   (510, "Not Extended"), (511, "Network Authentication Required")]

/-- The kind of a status that is no success. -/
def statusKind (status : Int) : String :=
  match Int.fdiv status 100 with
  | 1 => "Informational response"
  | 3 => "Redirect response"
  | 4 => "Client error"
  | 5 => "Server error"
  | _ => "Invalid status code"

/-- The words for a status that is no success, with the place of a manual about statuses. -/
def statusReason (manual : String) (status : Int) (address : String) : String :=
  let phrase := (statusPhrases.lookup status).getD ""
  statusKind status ++ " '" ++ toString status ++ " " ++ phrase ++ "' for url '" ++ address
    ++ "'\nFor more information check: " ++ manual ++ toString status

/-- The most directions that are followed. -/
def maxDirections : Nat := 20

/-- Request an address and follow the directions given; the count says how many more may be
followed. -/
def follow (manual : String) (left : Nat) (u : Url) : Exchange :=
  .request u.text fun answer =>
    match answer with
    | .broken reason => .ended (.error (.exchange reason))
    | .reply status location body =>
      match if directing.contains status then location else none with
      | some place =>
        match Url.ofText place with
        | .error reason =>
          .ended (.error (.exchange ("Invalid URL in location header: " ++ reason ++ ".")))
        | .ok target =>
          match u.follow target with
          | .error reason => .ended (.error (.refused (.urlRefused reason)))
          | .ok next =>
            match left with
            | 0 => .ended (.error (.exchange "Exceeded maximum allowed redirects."))
            | left + 1 => follow manual left next
      | none => .ended (.ok ⟨status, body, statusReason manual status u.text⟩)

/-- What the client does about an address.  A half of a surrogate pair is found only when the
address has been taken apart. -/
def request (manual : String) (text : List Text.Point) : Exchange :=
  match Url.ofText (String.ofList (text.map Text.Point.shape)) with
  | .error reason => .ended (.error (.refused (.urlRefused reason)))
  | .ok u =>
    match Text.firstHalf? text with
    | some unit => .ended (.error (.refused (.unencodable unit)))
    | none => follow manual maxDirections (if u.isAbsolute then u else u.below)

/-- The client that follows directions. -/
def following (manual : String) : Client :=
  ⟨request manual⟩

end SolidWorkshop.Library
