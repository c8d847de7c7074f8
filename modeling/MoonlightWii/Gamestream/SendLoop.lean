import MoonlightWii.Foundation.WriteLoop
import MoonlightWii.Gamestream.Http

/-!
# Writing a request (`http.c`)

`send_request` and `tls_request` print the request into an array of their own
and offer the transport as many bytes as `snprintf` returned.  That is the
length of the whole text, also where the array is too small for it.
-/

set_option autoImplicit false

namespace MoonlightWii.Gamestream.SendLoop

open Foundation.WriteLoop
open MoonlightWii.Gamestream.Errors
open MoonlightWii.Gamestream.Http
open MoonlightWii.Gamestream.Numbers

/-- The memory from the start of `request` on: what `snprintf` left of the text, its
terminator, and then whatever the stack holds. -/
def requestMemory (stack : Nat → Char) (size : Nat) (text : CString) (offset : Nat) : Char :=
  let printed := snprintf size text
  printed[offset]?.getD (if offset = printed.length then '\x00' else stack offset)

/-- What was sent before the response is read, with the places it was read from, and
whether the response is read at all. -/
structure Sent where
  offsets : List Nat
  bytes : CString
  reads : Bool

/-- The loop `while (sent < requestLen)` of both senders. -/
def sendText (writer : Writer) (stack : Nat → Char) (size : Nat) (text : CString) : Sent :=
  let requestLen := text.length
  let written := writeFrom writer requestLen 0
  ⟨written.offsets, written.offsets.map (requestMemory stack size text), written.complete⟩

def sendRequest (writer : Writer) (stack : Nat → Char) (host path : CString) : Sent :=
  sendText writer stack 8192 (requestText false host path)

/-- `tls_request` behind the handshake. -/
def tlsRequest (writer : Writer) (stack : Nat → Char) (host path : CString) : Sent :=
  sendText writer stack 4096 (requestText true host path)

/-- `http_request` up to the response; `none` is a URL that `parse_url` refuses.
`ready` says whether the connection, and over https the client certificate and the
handshake, came about. -/
def httpRequest (ready : Bool) (writer : Writer) (stack : Nat → Char) (url : CString) :
    Option Sent :=
  (parseUrl 256 4096 url).map fun parsed =>
    if ready then
      if parsed.isHttps then tlsRequest writer stack parsed.host parsed.path
      else sendRequest writer stack parsed.host parsed.path
    else ⟨[], [], false⟩

/-! ## What the loop sends -/

theorem sendText_spec (writer : Writer) (stack : Nat → Char) (size : Nat) (text : CString) :
    ∃ count, count ≤ text.length ∧
      (sendText writer stack size text).offsets = List.range count ∧
      (sendText writer stack size text).bytes =
        (List.range count).map (requestMemory stack size text) ∧
      ((sendText writer stack size text).reads = true → count = text.length) := by
  obtain ⟨count, bound, offsets, complete⟩ := writeFrom_spec writer text.length 0 (Nat.zero_le _)
  rw [← List.range_eq_range'] at offsets
  refine ⟨count, by omega, offsets, ?_, ?_⟩
  · simp only [sendText, offsets]
  · intro reads
    have reached := complete reads
    omega

/-- The memory of a text that fits is the text. -/
theorem requestMemory_take (stack : Nat → Char) {size : Nat} {text : CString}
    (fits : text.length < size) {count : Nat} (bound : count ≤ text.length) :
    (List.range count).map (requestMemory stack size text) = text.take count := by
  have whole : snprintf size text = text := List.take_of_length_le (by omega)
  apply List.ext_getElem
  · simp only [List.length_map, List.length_range, List.length_take]
    omega
  · intro index low high
    have inside : index < text.length := by
      rw [List.length_take] at high
      omega
    simp [requestMemory, whole, inside]

/-- The byte behind a text that does not fit is the terminator. -/
theorem requestMemory_terminator (stack : Nat → Char) {size : Nat} {text : CString}
    (long : size < text.length + 1) :
    requestMemory stack size text (size - 1) = '\x00' := by
  have cut : (snprintf size text).length = size - 1 := by
    rw [snprintf, List.length_take]
    omega
  simp [requestMemory, cut]

/-! ## Faithful requests -/

structure Faithful (parsed : ParsedUrl) (sent : Sent) : Prop where
  begins : sent.bytes <+: requestText parsed.isHttps parsed.host parsed.path
  whole : sent.reads = true → sent.bytes = requestText parsed.isHttps parsed.host parsed.path
  inside : ∀ offset ∈ sent.offsets, offset < requestSize parsed.isHttps

theorem nothing_faithful (parsed : ParsedUrl) : Faithful parsed ⟨[], [], false⟩ where
  begins := List.nil_prefix
  whole := fun reads => absurd reads Bool.false_ne_true
  inside := fun _ member => absurd member List.not_mem_nil

theorem sendText_faithful (parsed : ParsedUrl) (writer : Writer) (stack : Nat → Char)
    (fits : (requestText parsed.isHttps parsed.host parsed.path).length <
      requestSize parsed.isHttps) :
    Faithful parsed
      (sendText writer stack (requestSize parsed.isHttps)
        (requestText parsed.isHttps parsed.host parsed.path)) := by
  obtain ⟨count, bound, offsets, bytes, complete⟩ := sendText_spec writer stack
    (requestSize parsed.isHttps) (requestText parsed.isHttps parsed.host parsed.path)
  rw [requestMemory_take stack fits bound] at bytes
  refine ⟨?_, ?_, ?_⟩
  · rw [bytes]
    exact List.take_prefix _ _
  · intro reads
    rw [bytes, complete reads, List.take_length]
  · intro offset member
    rw [offsets, List.mem_range] at member
    omega

theorem requestText_last (isHttps : Bool) (host path : CString) :
    (requestText isHttps host path).getLast? = some '\n' := by
  cases isHttps with
  | true =>
      rw [requestText, if_pos rfl, List.getLast?_append]
      rfl
  | false =>
      rw [requestText, if_neg Bool.false_ne_true, List.getLast?_append]
      rfl

theorem sendText_eager (stack : Nat → Char) (size : Nat) (text : CString) :
    sendText eager stack size text =
      ⟨List.range text.length, (List.range text.length).map (requestMemory stack size text),
        true⟩ := by
  simp only [sendText, writeFrom_eager]

/-- Where the text does not fit, a callee that takes everything is given a byte from
behind the array, or the terminator for the last byte of the text. -/
theorem sendText_long (stack : Nat → Char) {size : Nat} {text : CString} (positive : 0 < size)
    (last : text.getLast? = some '\n') (long : size ≤ text.length)
    (inside : ∀ offset ∈ (sendText eager stack size text).offsets, offset < size) :
    (sendText eager stack size text).bytes ≠ text := by
  intro sameText
  rw [sendText_eager] at inside sameText
  have exact : text.length = size := by
    by_contra different
    exact absurd (inside size (List.mem_range.mpr (by omega))) (Nat.lt_irrefl size)
  have terminator : requestMemory stack size text (size - 1) = '\x00' :=
    requestMemory_terminator stack (by omega)
  have lastSent : text[size - 1]? = some '\x00' := by
    conv_lhs => rw [← sameText]
    rw [List.getElem?_map, List.getElem?_range (by omega), Option.map_some, terminator]
  rw [List.getLast?_eq_getElem?, exact, lastSent] at last
  exact absurd (Option.some.inj last) (by decide)

theorem requestSize_pos (isHttps : Bool) : 0 < requestSize isHttps := by
  cases isHttps with
  | true => decide
  | false => decide

/-! ## The URLs whose requests are faithful -/

theorem parseHost_bounds {hostSize pathSize : Nat} {isHttps : Bool} {text : CString}
    {parsed : ParsedUrl} (accepted : parseHost hostSize pathSize isHttps text = some parsed) :
    parsed.host.length < hostSize ∧ parsed.path.length < pathSize := by
  unfold parseHost at accepted
  simp only at accepted
  split at accepted
  · cases accepted
  · split at accepted
    · cases accepted
    · cases Option.some.inj accepted
      simp only [List.length_take]
      omega

theorem parseUrl_bounds {hostSize pathSize : Nat} {url : CString} {parsed : ParsedUrl}
    (accepted : parseUrl hostSize pathSize url = some parsed) :
    parsed.host.length < hostSize ∧ parsed.path.length < pathSize := by
  unfold parseUrl at accepted
  split at accepted
  · exact parseHost_bounds accepted
  · split at accepted
    · exact parseHost_bounds accepted
    · cases accepted

theorem requestText_secure_length (host path : CString) :
    (requestText true host path).length = path.length + host.length + 44 := by
  simp [requestText]
  omega

theorem httpRequest_ready {url : CString} {parsed : ParsedUrl} (writer : Writer)
    (stack : Nat → Char) (accepted : parseUrl 256 4096 url = some parsed) :
    httpRequest true writer stack url =
      some (sendText writer stack (requestSize parsed.isHttps)
        (requestText parsed.isHttps parsed.host parsed.path)) := by
  rw [httpRequest, accepted, Option.map_some, if_pos rfl]
  cases secure : parsed.isHttps with
  | true => rfl
  | false => rfl

/-- Over plain http every accepted URL is sent faithfully, whatever the transport
takes of each offer; over https exactly those whose request fits. -/
theorem request_faithful_iff_fits (url : CString) (parsed : ParsedUrl)
    (accepted : parseUrl 256 4096 url = some parsed) :
    (∀ ready writer stack sent, httpRequest ready writer stack url = some sent →
        Faithful parsed sent) ↔
      (parsed.isHttps = true → parsed.path.length + parsed.host.length + 44 < 4096) := by
  constructor
  · intro faithful secure
    by_contra long
    have everything := faithful true eager (fun _ => ' ') _
      (httpRequest_ready eager (fun _ => ' ') accepted)
    have overlong : requestSize parsed.isHttps ≤
        (requestText parsed.isHttps parsed.host parsed.path).length := by
      rw [secure, requestText_secure_length, requestSize, if_pos rfl]
      omega
    have reads : (sendText eager (fun _ => ' ') (requestSize parsed.isHttps)
        (requestText parsed.isHttps parsed.host parsed.path)).reads = true := by
      rw [sendText_eager]
    exact sendText_long (fun _ => ' ') (requestSize_pos _) (requestText_last _ _ _) overlong
      everything.inside (everything.whole reads)
  · intro fits ready writer stack sent performed
    obtain ⟨shortHost, shortPath⟩ := parseUrl_bounds accepted
    cases ready with
    | false =>
        rw [httpRequest, accepted, Option.map_some, if_neg Bool.false_ne_true] at performed
        cases Option.some.inj performed
        exact nothing_faithful parsed
    | true =>
        rw [httpRequest_ready writer stack accepted] at performed
        cases Option.some.inj performed
        apply sendText_faithful
        cases secure : parsed.isHttps with
        | true =>
            have fitting := fits secure
            rw [requestText_secure_length, requestSize, if_pos rfl]
            omega
        | false =>
            exact requestText_fits shortHost shortPath fun impossible =>
              absurd impossible Bool.false_ne_true

theorem request_faithful_plain :
    (∀ ready writer stack sent,
        httpRequest ready writer stack "http://pc/applist".toList = some sent →
          Faithful ⟨false, "pc".toList, 80, "/applist".toList⟩ sent) ↔
      (false = true → 8 + 2 + 44 < 4096) :=
  request_faithful_iff_fits "http://pc/applist".toList
    ⟨false, "pc".toList, 80, "/applist".toList⟩ rfl

/-- `https://pc:47984/aaa…` with 4078 letters; the callers of the library print their
URLs into 4096 bytes too. -/
theorem long_request_unfaithful :
    ¬ ∀ ready writer stack sent parsed,
      parseUrl 256 4096 (urlText true "pc".toList (List.replicate 4078 'a')) = some parsed →
        httpRequest ready writer stack
            (urlText true "pc".toList (List.replicate 4078 'a')) = some sent →
          Faithful parsed sent := by
  intro faithful
  have accepted : parseUrl 256 4096 (urlText true "pc".toList (List.replicate 4078 'a')) =
      some ⟨true, "pc".toList, atoi (portText true ++ '/' :: List.replicate 4078 'a'),
        '/' :: List.replicate 4078 'a'⟩ := by
    rw [urlText, parseUrl_scheme, parseHost_parts 256 4096 true "pc".toList (portText true)
      (List.replicate 4078 'a') (by decide) (by decide) (by decide), if_neg]
    rw [List.length_replicate]
    decide
  have everything := faithful true eager (fun _ => ' ') _ _ accepted
    (httpRequest_ready eager (fun _ => ' ') accepted)
  have overlong : requestSize true ≤
      (requestText true "pc".toList ('/' :: List.replicate 4078 'a')).length := by
    rw [requestText_secure_length, List.length_cons, List.length_replicate, requestSize]
    decide
  refine sendText_long (fun _ => ' ') (requestSize_pos true) (requestText_last _ _ _) overlong
    everything.inside (everything.whole ?_)
  rw [sendText_eager]

end MoonlightWii.Gamestream.SendLoop
