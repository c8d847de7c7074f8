import MoonlightWii.Gamestream.Numbers

/-!
# From a URL to the bytes of a request (`http.c`)

`parse_url` cuts a URL into buffers of the caller, `tls_request` and
`send_request` print the request into a buffer of their own and write as many
bytes as `snprintf` says the whole text has.
-/

set_option autoImplicit false

namespace MoonlightWii.Gamestream.Http

open MoonlightWii.Gamestream.Errors
open MoonlightWii.Gamestream.Numbers

/-! ## `parse_url` -/

def strchr (text : CString) (char : Char) : Option Nat := text.findIdx? fun other => other == char

structure ParsedUrl where
  isHttps : Bool
  host : CString
  port : Int
  path : CString

/-- `parse_url` behind the scheme. -/
def parseHost (hostSize pathSize : Nat) (isHttps : Bool) (text : CString) : Option ParsedUrl :=
  let hostEnd := strchr text '/'
  let colon := (strchr text ':').filter fun colon => hostEnd.all fun slash => decide (colon < slash)
  let hostLen := colon.getD (hostEnd.getD text.length)
  let port := match colon with
    | some colon => atoi (text.drop (colon + 1))
    | none => if isHttps then 443 else 80
  if hostSize ≤ hostLen then none
  else
    let path := text.drop (hostEnd.getD hostLen)
    if pathSize ≤ path.length then none
    else some { isHttps := isHttps, host := text.take hostLen, port := port, path := path }

def parseUrl (hostSize pathSize : Nat) (url : CString) : Option ParsedUrl :=
  if "https://".toList.isPrefixOf url then parseHost hostSize pathSize true (url.drop 8)
  else if "http://".toList.isPrefixOf url then parseHost hostSize pathSize false (url.drop 7)
  else none

/-! ## The request -/

/-- The text that `tls_request` or `send_request` prints. -/
def requestText (isHttps : Bool) (host path : CString) : CString :=
  if isHttps then
    "GET ".toList ++ path ++ " HTTP/1.1\r\nHost: ".toList ++ host ++
      "\r\nConnection: close\r\n\r\n".toList
  else
    "GET ".toList ++ path ++ " HTTP/1.1\r\nHost: ".toList ++ host ++
      "\r\nUser-Agent: Moonlight/1.0\r\nAccept: */*\r\nConnection: close\r\n\r\n".toList

def requestSize (isHttps : Bool) : Nat := if isHttps then 4096 else 8192

/-- The first `requestLen` bytes at `request`, where `requestLen` is the length of
the text before `snprintf` cut it; `stack` is what follows the printed text. -/
def requestBytes (stack : Nat → Char) (size : Nat) (text : CString) : CString :=
  (List.range text.length).map fun index => (snprintf size text)[index]?.getD (stack index)

structure Transmission where
  isHttps : Bool
  host : CString
  port : Int
  bytes : CString

/-- What `http_request` sends, and where, when connecting and writing succeed;
`none` when it returns before it connects. -/
def transmission (stack : Nat → Char) (url : CString) : Option Transmission :=
  (parseUrl 256 4096 url).map fun parsed =>
    { isHttps := parsed.isHttps
      host := parsed.host
      port := parsed.port
      bytes := requestBytes stack (requestSize parsed.isHttps)
        (requestText parsed.isHttps parsed.host parsed.path) }

theorem requestBytes_of_fits (stack : Nat → Char) (size : Nat) (text : CString)
    (fits : text.length < size) : requestBytes stack size text = text := by
  have whole : snprintf size text = text := List.take_of_length_le (by omega)
  unfold requestBytes
  rw [whole]
  apply List.ext_getElem
  · simp
  · intro index low high
    simp [high]

/-- A path and a host that `parse_url` accepts always fit a plain request; over
https the path has to be shorter. -/
theorem requestText_fits {isHttps : Bool} {host path : CString} (shortHost : host.length < 256)
    (shortPath : path.length < 4096) (secure : isHttps = true → path.length < 3790) :
    (requestText isHttps host path).length < requestSize isHttps := by
  cases isHttps with
  | true =>
      have short := secure rfl
      simp [requestText, requestSize]
      omega
  | false =>
      simp [requestText, requestSize]
      omega

/-! ## Which URLs are refused -/

theorem strchr_absent {run : CString} {char : Char} (clean : char ∉ run) :
    run.findIdx? (fun other => other == char) = none := by
  rw [List.findIdx?_eq_none_iff]
  intro other member
  exact beq_eq_false_iff_ne.mpr fun same => clean (same ▸ member)

/-- A letter that does not occur in a first part is only found behind it. -/
theorem strchr_behind {run rest : CString} {char : Char} (clean : char ∉ run) {place : Nat}
    (found : strchr (run ++ rest) char = some place) : run.length ≤ place := by
  unfold strchr at found
  rw [List.findIdx?_append, strchr_absent clean, Option.none_or, Option.map_eq_some_iff] at found
  obtain ⟨later, -, rfl⟩ := found
  exact Nat.le_add_left _ _

theorem strchr_next {run rest : CString} {char : Char} (clean : char ∉ run) :
    strchr (run ++ char :: rest) char = some run.length := by
  unfold strchr
  simp [List.findIdx?_append, strchr_absent clean, List.findIdx?_cons]

theorem parseHost_long_host (hostSize pathSize : Nat) (isHttps : Bool) {run : CString}
    (rest : CString) (noColon : ':' ∉ run) (noSlash : '/' ∉ run)
    (long : hostSize ≤ run.length) :
    parseHost hostSize pathSize isHttps (run ++ rest) = none := by
  unfold parseHost
  simp only
  rw [if_pos]
  cases colon : (strchr (run ++ rest) ':').filter fun colon =>
      (strchr (run ++ rest) '/').all fun slash => decide (colon < slash) with
  | some place =>
      have behind := strchr_behind noColon (Option.filter_eq_some_iff.mp colon).1
      simp only [Option.getD_some]
      omega
  | none =>
      simp only [Option.getD_none]
      cases slash : strchr (run ++ rest) '/' with
      | some place =>
          have behind := strchr_behind noSlash slash
          simp only [Option.getD_some]
          omega
      | none =>
          simp only [Option.getD_none, List.length_append]
          omega

/-- A host, a port and a path are taken apart where both fit. -/
theorem parseHost_parts (hostSize pathSize : Nat) (isHttps : Bool) (host port path : CString)
    (noColon : ':' ∉ host) (noSlash : '/' ∉ host) (noSlashInPort : '/' ∉ port) :
    parseHost hostSize pathSize isHttps (host ++ ':' :: port ++ '/' :: path) =
      if hostSize ≤ host.length ∨ pathSize ≤ path.length + 1 then none
      else some
        { isHttps := isHttps, host := host, port := atoi (port ++ '/' :: path),
          path := '/' :: path } := by
  have colon : strchr (host ++ ':' :: port ++ '/' :: path) ':' = some host.length := by
    rw [List.append_assoc]
    exact strchr_next noColon
  have slash : strchr (host ++ ':' :: port ++ '/' :: path) '/' =
      some (host ++ ':' :: port).length := by
    apply strchr_next
    simp only [List.mem_append, List.mem_cons, not_or]
    exact ⟨noSlash, by decide, noSlashInPort⟩
  have before : host.length < (host ++ ':' :: port).length := by simp
  unfold parseHost
  simp only [colon, slash, Option.filter_some, Option.all_some, before, decide_true, if_true,
    Option.getD_some]
  by_cases longHost : hostSize ≤ host.length
  · simp [longHost]
  · by_cases longPath : pathSize ≤ path.length + 1
    · simp [longHost, longPath]
    · simp [longHost, longPath]

def schemeText (isHttps : Bool) : CString :=
  if isHttps then "https://".toList else "http://".toList

def portText (isHttps : Bool) : CString := if isHttps then "47984".toList else "47989".toList

def portNumber (isHttps : Bool) : Int := if isHttps then 47984 else 47989

theorem parseUrl_scheme (hostSize pathSize : Nat) (isHttps : Bool) (text : CString) :
    parseUrl hostSize pathSize (schemeText isHttps ++ text) =
      parseHost hostSize pathSize isHttps text := by
  cases isHttps with
  | true => rfl
  | false => rfl

theorem atoi_portText (isHttps : Bool) (path : CString) :
    atoi (portText isHttps ++ '/' :: path) = portNumber isHttps := by
  have stops : Foundation.TextRun.Stops Char.isDigit ('/' :: path) :=
    Foundation.TextRun.stops_cons (by decide) path
  have digits : ∀ char ∈ portText isHttps, char.isDigit = true := by
    cases isHttps <;> simp [portText]
  cases isHttps with
  | true => exact (atoi_digits (by decide) digits stops).trans (by decide)
  | false => exact (atoi_digits (by decide) digits stops).trans (by decide)

/-- A host of 256 characters or more is refused, wherever the URL was cut behind them. -/
theorem transmission_long_host (stack : Nat → Char) (isHttps : Bool) {run : CString}
    (rest : CString) (noColon : ':' ∉ run) (noSlash : '/' ∉ run) (long : 256 ≤ run.length) :
    transmission stack (schemeText isHttps ++ (run ++ rest)) = none := by
  unfold transmission
  rw [parseUrl_scheme, parseHost_long_host 256 4096 isHttps rest noColon noSlash long,
    Option.map_none]

/-- The text of a URL of the library, from the scheme to the path. -/
def urlText (isHttps : Bool) (host path : CString) : CString :=
  schemeText isHttps ++ (host ++ ':' :: portText isHttps ++ '/' :: path)

theorem transmission_url (stack : Nat → Char) (isHttps : Bool) (host path : CString)
    (noColon : ':' ∉ host) (noSlash : '/' ∉ host) :
    transmission stack (urlText isHttps host path) =
      if 256 ≤ host.length ∨ 4096 ≤ path.length + 1 then none
      else some
        { isHttps := isHttps, host := host, port := portNumber isHttps,
          bytes := requestBytes stack (requestSize isHttps)
            (requestText isHttps host ('/' :: path)) } := by
  have clean : '/' ∉ portText isHttps := by cases isHttps <;> decide
  unfold transmission urlText
  rw [parseUrl_scheme, parseHost_parts 256 4096 isHttps host (portText isHttps) path noColon
    noSlash clean, atoi_portText]
  split
  · rfl
  · rfl

end MoonlightWii.Gamestream.Http
