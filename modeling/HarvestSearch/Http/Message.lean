/-
Requests and replies as bytes on the wire.

Every request is sent on a connection of its own, which the engine closes behind its reply. So a
reply is all the bytes up to the end of the connection: a status line, header lines, an empty line and
a body, which is cut at its announced length or put together from its chunks.
-/
import HarvestSearch.Engine

set_option autoImplicit false

namespace HarvestSearch.Http

/-! ## Addresses -/

/-- Where a request goes. -/
structure Address where
  host : String
  -- the number of the service at the host
  service : UInt16
  path : String
deriving DecidableEq, Repr, Inhabited

/-- The text behind a beginning that it has to have. -/
def dropHead? (head cs : List Char) : Option (List Char) := Json.expect? head cs

/-- The number of the service when an address names none. -/
def usualService : Nat := 80

/-- The address of an `http` URL. -/
def Address.ofUrl? (url : String) : Option Address := do
  let rest ← dropHead? "http://".toList url.toList
  let authority := rest.takeWhile (· != '/')
  let path := rest.dropWhile (· != '/')
  let (host, digits) := (Text.cutLast ':' authority).getD (authority, [])
  let service := if digits.isEmpty then usualService else Json.digitsValue digits
  if host.isEmpty || !digits.all Char.isDigit || 65535 < service then none
  else
    let path := if path.isEmpty then "/" else String.ofList path
    some ⟨String.ofList host, UInt16.ofNat service, path⟩

/-- A byte that a path may hold as it is. -/
def isPathByte (b : UInt8) : Bool :=
  32 < b && b < 127 && !(r#""<>`{}"#.toUTF8.data.contains b)

/-- A byte of a path, as it is or as a percent sign and two hexadecimal digits. -/
def pathByteText (b : UInt8) : List Char :=
  let digit (n : Nat) : Char := (Nat.digitChar n).toUpper
  if isPathByte b then [Char.ofNat b.toNat]
  else ['%', digit (b.toNat / 16), digit (b.toNat % 16)]

/-- The path with all other bytes written as percent signs and digits. -/
def encodePath (path : String) : String :=
  String.ofList (path.toUTF8.data.toList.flatMap pathByteText)

/-! ## Requests -/

def lineEnd : String := "\r\n"

def headerLine (name value : String) : String := name ++ ": " ++ value ++ lineEnd

def Request.toBytes (r : Request) (address : Address) : ByteArray :=
  let body := r.body.compact.toUTF8
  let head :=
    r.method ++ " " ++ encodePath address.path ++ " HTTP/1.1" ++ lineEnd
      ++ headerLine "host" (address.host ++ ":" ++ Json.intText address.service.toNat)
      ++ String.join (r.headers.entries.map fun (name, value) => headerLine name value)
      ++ headerLine "content-length" (Json.intText body.size)
      ++ headerLine "connection" "close"
      ++ lineEnd
  head.toUTF8 ++ body

/-! ## Replies -/

def carriageReturn : UInt8 := 13

def lineFeed : UInt8 := 10

/-- The bytes before the first line end and those behind it. -/
def cutLine? : List UInt8 → Option (List UInt8 × List UInt8)
  | [] => none
  | [_] => none
  | a :: b :: rest =>
    if a = carriageReturn && b = lineFeed then some ([], rest)
    else (cutLine? (b :: rest)).map fun (line, behind) => (a :: line, behind)

/-- The ASCII characters of bytes. -/
def asciiText (bytes : List UInt8) : List Char := bytes.map fun b => Char.ofNat b.toNat

/-- The header lines up to the empty one, as names in small letters and values, and the body. -/
def headerLines? (steps : Nat) (bytes : List UInt8) :
    Option (List (String × String) × List UInt8) :=
  match steps with
  | 0 => none
  | steps + 1 => do
    let (line, rest) ← cutLine? bytes
    if line.isEmpty then pure ([], rest)
    else
      let (name, value) ← Text.cutFirst ':' (asciiText line)
      let (lines, body) ← headerLines? steps rest
      let header := (String.ofList (name.map Char.toLower), Text.trim (String.ofList value))
      pure (header :: lines, body)

def statusOf? (line : List UInt8) : Option Nat := do
  let rest ← dropHead? "HTTP/1.".toList (asciiText line)
  let digits := (rest.drop 2).take 3
  if digits.length = 3 && digits.all Char.isDigit then some (Json.digitsValue digits) else none

/-- The body that chunks make up: each has its size in a line of its own before it, and the last one
is empty. -/
def chunkedBody? (steps : Nat) (bytes : List UInt8) : Option (List UInt8) :=
  match steps with
  | 0 => none
  | steps + 1 => do
    let (line, rest) ← cutLine? bytes
    let size ← Json.hexValue? ((asciiText line).takeWhile fun c => (Json.hexDigit? c).isSome)
    if size = 0 then pure []
    else if rest.length < size + 2 then none
    else
      let behind ← chunkedBody? steps (rest.drop (size + 2))
      pure (rest.take size ++ behind)

/-- The body that the header announces. -/
def bodyOf? (headers : List (String × String)) (bytes : List UInt8) : Option (List UInt8) :=
  if (headers.lookup "transfer-encoding").any (Text.lowerAscii · = "chunked") then
    chunkedBody? (bytes.length + 1) bytes
  else
    match headers.lookup "content-length" with
    | some length =>
      let size := Json.digitsValue length.toList
      if bytes.length < size then none else some (bytes.take size)
    | none => some bytes

/-- The reply that the bytes of a connection hold. -/
def Reply.ofBytes? (bytes : ByteArray) : Option Reply := do
  let all := bytes.data.toList
  let (line, rest) ← cutLine? all
  let status ← statusOf? line
  let (headers, rest) ← headerLines? (rest.length + 1) rest
  let body ← bodyOf? headers rest
  let text ← String.fromUTF8? ⟨body.toArray⟩
  pure ⟨status, text⟩

end HarvestSearch.Http
