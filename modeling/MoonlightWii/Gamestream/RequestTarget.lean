import MoonlightWii.Gamestream.Conf
import MoonlightWii.Gamestream.Http
import MoonlightWii.Gamestream.StartApp

/-!
# Intended requests and the URLs built for them

What a request should say, without any buffer, against the URL that
`construct_url`, `append_param` and `strlcat` leave in theirs: a text that was
cut on the way is too long for `parse_url`.
-/

set_option autoImplicit false

namespace MoonlightWii.Gamestream.RequestTarget

open MoonlightWii.Gamestream.Conf
open MoonlightWii.Gamestream.Crypto
open MoonlightWii.Gamestream.Errors
open MoonlightWii.Gamestream.Http
open MoonlightWii.Gamestream.Numbers
open MoonlightWii.Gamestream.Request
open MoonlightWii.Gamestream.StartApp

/-! ## Intended requests -/

structure IntendedRequest where
  secure : Bool
  action : String
  params : List (String × CString)
  /-- Text that stands behind the parameters as it is. -/
  extra : CString

def parameter (param : String × CString) : CString := '&' :: param.1.toList ++ '=' :: param.2

def IntendedRequest.target (request : IntendedRequest) (client : Client) (uuid : CString) :
    CString :=
  request.action.toList ++ "?uniqueid=".toList ++ client.uniqueId ++ "&uuid=".toList ++ uuid ++
    request.params.flatMap parameter ++ request.extra

/-- The request as it should go out. -/
def IntendedRequest.whole (request : IntendedRequest) (client : Client) (uuid address : CString) :
    Transmission where
  isHttps := request.secure
  host := address
  port := portNumber request.secure
  bytes := requestText request.secure address ('/' :: request.target client uuid)

/-- `http_request` returns before it connects, or it sends the whole request. -/
def Arrives (memory : Nat → Char) (client : Client) (uuid address : CString)
    (request : IntendedRequest) (url : CString) : Prop :=
  transmission memory url = none ∨
    transmission memory url = some (request.whole client uuid address)

/-! ## `uuidstr_random` -/

/-- `uuid_next`; `fresh` seeds the generator from the clock. -/
def uuidNext (fresh seed : UInt32) : UInt32 :=
  let x := if seed = 0 then fresh else seed
  let x := x ^^^ (x <<< 13)
  let x := x ^^^ (x >>> 17)
  x ^^^ (x <<< 5)

/-- The loop with this many digits to go. -/
def uuidDigits (fresh : UInt32) : Nat → UInt32 → CString
  | 0, _ => []
  | left + 1, seed =>
      let next := uuidNext fresh seed
      (if left ∈ [23, 19, 15, 11] then ['-'] else []) ++
        hexDigit (next >>> 28).toNat :: uuidDigits fresh left next

def uuidstrRandom (fresh seed : UInt32) : CString := uuidDigits fresh 32 seed

theorem uuidDigits_length (fresh : UInt32) (count : Nat) (seed : UInt32) :
    (uuidDigits fresh count seed).length =
      count + [23, 19, 15, 11].countP fun mark => decide (mark < count) := by
  induction count generalizing seed with
  | zero => rfl
  | succ left ih =>
      rw [uuidDigits]
      simp only [List.length_append, List.length_cons, ih]
      by_cases marked : left ∈ [23, 19, 15, 11]
      · rw [if_pos marked]
        simp only [List.mem_cons, List.not_mem_nil, or_false] at marked
        rcases marked with rfl | rfl | rfl | rfl <;> rfl
      · rw [if_neg marked]
        simp only [List.mem_cons, List.not_mem_nil, or_false, not_or] at marked
        have same : ([23, 19, 15, 11].countP fun mark => decide (mark < left + 1)) =
            [23, 19, 15, 11].countP fun mark => decide (mark < left) := by
          apply List.countP_congr
          intro mark member
          simp only [List.mem_cons, List.not_mem_nil, or_false] at member
          simp only [decide_eq_true_eq]
          omega
        rw [same, List.length_nil]
        omega

theorem uuidstrRandom_length (fresh seed : UInt32) : (uuidstrRandom fresh seed).length = 36 :=
  uuidDigits_length fresh 32 seed

/-! ## URLs that were cut -/

theorem urlText_append (secure : Bool) (address path more : CString) :
    urlText secure address path ++ more = urlText secure address (path ++ more) := by
  simp [urlText]

theorem urlText_length (secure : Bool) {address : CString} (path : CString)
    (shortHost : address.length < 256) :
    (urlText secure address path).length ≤ path.length + 270 := by
  have scheme : (schemeText secure).length ≤ 8 := by cases secure <;> decide
  have port : (portText secure).length = 5 := by cases secure <;> rfl
  simp only [urlText, List.length_append, List.length_cons]
  omega

theorem short_path_whole (secure : Bool) {address : CString} (path : CString) (size : Nat)
    (shortHost : address.length < 256) (room : path.length + 271 ≤ size) :
    snprintf size (urlText secure address path) = urlText secure address path := by
  have length := urlText_length secure path shortHost
  exact List.take_of_length_le (by omega)

section Cut

variable (memory : Nat → Char) (secure : Bool) {address : CString} (noColon : ':' ∉ address)
  (noSlash : '/' ∉ address)

include noColon noSlash

/-- Cutting a URL with a long host leaves 256 characters of it, whatever is
appended afterwards. -/
theorem long_host_refused (path more : CString) (size : Nat) (room : 265 ≤ size)
    (long : 256 ≤ address.length) :
    transmission memory (snprintf size (urlText secure address path) ++ more) = none := by
  have scheme : (schemeText secure).length ≤ 8 := by cases secure <;> decide
  have cut : snprintf size (urlText secure address path) =
      schemeText secure ++ (address.take (size - 1 - (schemeText secure).length) ++
        (':' :: portText secure ++ '/' :: path).take
          (size - 1 - (schemeText secure).length - address.length)) := by
    unfold snprintf urlText
    rw [List.take_append, List.take_of_length_le (by omega), List.append_assoc, List.take_append]
  rw [cut, List.append_assoc, List.append_assoc]
  apply transmission_long_host
  · exact fun member => noColon (List.mem_of_mem_take member)
  · exact fun member => noSlash (List.mem_of_mem_take member)
  · rw [List.length_take]
    omega

/-- A path that `parse_url` refuses is refused after a cut at 4365 characters too. -/
theorem long_path_refused (path : CString) (size : Nat) (room : 4366 ≤ size)
    (long : 4095 ≤ path.length) :
    transmission memory (snprintf size (urlText secure address path)) = none := by
  by_cases longHost : 256 ≤ address.length
  · have refused := long_host_refused memory secure noColon noSlash path [] size (by omega) longHost
    rw [List.append_nil] at refused
    exact refused
  · have front : (urlText secure address []).length ≤ 270 :=
      urlText_length secure [] (by omega)
    have split : urlText secure address path = urlText secure address [] ++ path := by
      rw [urlText_append, List.nil_append]
    have cut : snprintf size (urlText secure address path) =
        urlText secure address (path.take (size - 1 - (urlText secure address []).length)) := by
      unfold snprintf
      rw [split, List.take_append, List.take_of_length_le (by omega), urlText_append,
        List.nil_append]
    rw [cut, transmission_url memory secure _ _ noColon noSlash, if_pos]
    rw [List.length_take]
    omega

/-- A URL that is complete, as far as it is short enough for its buffers. -/
theorem complete_arrives (client : Client) (uuid : CString) (request : IntendedRequest)
    (same : request.secure = secure)
    (short : secure = true → (request.target client uuid).length < 3789) :
    Arrives memory client uuid address request
      (urlText secure address (request.target client uuid)) := by
  unfold Arrives
  rw [transmission_url memory secure _ _ noColon noSlash]
  by_cases refused : 256 ≤ address.length ∨ 4096 ≤ (request.target client uuid).length + 1
  · exact .inl (if_pos refused)
  · obtain ⟨shortHost, shortPath⟩ := not_or.mp refused
    have fits : (requestText secure address ('/' :: request.target client uuid)).length <
        requestSize secure := by
      apply requestText_fits
      · omega
      · rw [List.length_cons]
        omega
      · intro https
        have bound := short https
        rw [List.length_cons]
        omega
    right
    rw [if_neg refused, requestBytes_of_fits memory _ _ fits, IntendedRequest.whole, same]

/-- A short path is never cut, and a long host is refused. -/
theorem short_path_arrives (client : Client) (uuid : CString) (request : IntendedRequest)
    (same : request.secure = secure) (size : Nat)
    (room : (request.target client uuid).length + 271 ≤ size)
    (short : secure = true → (request.target client uuid).length < 3789) :
    Arrives memory client uuid address request
      (snprintf size (urlText secure address (request.target client uuid))) := by
  by_cases longHost : 256 ≤ address.length
  · have refused := long_host_refused memory secure noColon noSlash
      (request.target client uuid) [] size (by omega) longHost
    rw [List.append_nil] at refused
    exact .inl refused
  · rw [short_path_whole secure _ _ (by omega) room]
    exact complete_arrives memory _ noColon noSlash client uuid request same short

end Cut

/-! ## `construct_url` -/

/-- The URL's path as `construct_url` prints it, without the slash. -/
def printedPath (client : Client) (uuid action : CString) (params : Option CString) : CString :=
  action ++ "?uniqueid=".toList ++ client.uniqueId ++ "&uuid=".toList ++ uuid.take 36 ++
    match params with
    | some text => '&' :: snprintf 4096 text
    | none => []

theorem constructUrl_eq (client : Client) (uuid : CString) (size : Nat) (secure : Bool)
    (address action : CString) (params : Option CString) :
    constructUrl client uuid size secure address action params =
      snprintf size (urlText secure address (printedPath client uuid action params)) := by
  cases secure with
  | true => cases params <;> simp [constructUrl, urlText, schemeText, portText, printedPath]
  | false => cases params <;> simp [constructUrl, urlText, schemeText, portText, printedPath]

/-- The parameters of a request as `construct_url` gets them. -/
def Prints (request : IntendedRequest) (params : Option CString) : Prop :=
  request.params.flatMap parameter ++ request.extra =
    match params with
    | some text => '&' :: text
    | none => []

theorem printedPath_eq_target {client : Client} {uuid : CString} (known : uuid.length = 36)
    {request : IntendedRequest} {params : Option CString} (prints : Prints request params)
    (fits : ∀ text, params = some text → text.length < 4096) :
    printedPath client uuid request.action.toList params = request.target client uuid := by
  unfold printedPath IntendedRequest.target
  rw [List.take_of_length_le (by omega), List.append_assoc _ _ request.extra, prints]
  cases params with
  | none => rfl
  | some text =>
      have short := fits text rfl
      have kept : snprintf 4096 text = text := List.take_of_length_le (by omega)
      simp only [kept]

/-- Parameters that `construct_url` cuts make the path too long. -/
theorem long_params_refused (memory : Nat → Char) (secure : Bool) {address : CString}
    (noColon : ':' ∉ address) (noSlash : '/' ∉ address) (client : Client) (uuid action : CString)
    {text : CString} (long : 4095 ≤ text.length) :
    transmission memory (constructUrl client uuid 5120 secure address action (some text)) =
      none := by
  rw [constructUrl_eq]
  apply long_path_refused memory secure noColon noSlash _ _ (by decide)
  simp only [printedPath, snprintf, List.length_append, List.length_cons, List.length_take]
  omega

section Construct

variable (memory : Nat → Char) {address : CString} (noColon : ':' ∉ address)
  (noSlash : '/' ∉ address) (client : Client) {uuid : CString} (known : uuid.length = 36)
  (request : IntendedRequest) {params : Option CString} (prints : Prints request params)

include noColon noSlash known prints

/-- In the buffer of `gs_pair` whatever was cut is refused. -/
theorem large_constructUrl_arrives
    (short : request.secure = true → (request.target client uuid).length < 3789) :
    Arrives memory client uuid address request
      (constructUrl client uuid 5120 request.secure address request.action.toList params) := by
  rw [constructUrl_eq]
  by_cases long : 4095 ≤ (printedPath client uuid request.action.toList params).length
  · exact .inl (long_path_refused memory _ noColon noSlash _ _ (by decide) long)
  · have fits : ∀ text, params = some text → text.length < 4096 := by
      rintro text rfl
      simp only [printedPath, snprintf, List.length_append, List.length_cons,
        List.length_take] at long
      omega
    rw [printedPath_eq_target known prints fits] at long ⊢
    exact short_path_arrives memory _ noColon noSlash client uuid request rfl _ (by omega) short

/-- A short request always fits the other buffers. -/
theorem small_constructUrl_arrives (short : (request.target client uuid).length < 3789) :
    Arrives memory client uuid address request
      (constructUrl client uuid 4096 request.secure address request.action.toList params) := by
  have fits : ∀ text, params = some text → text.length < 4096 := by
    rintro text rfl
    have size := congrArg List.length prints
    simp only [List.length_append, List.length_cons] at size
    simp only [IntendedRequest.target, List.length_append] at short
    omega
  rw [constructUrl_eq, printedPath_eq_target known prints fits]
  exact short_path_arrives memory _ noColon noSlash client uuid request rfl _ (by omega)
    fun _ => short

end Construct

/-! ## `append_param` -/

theorem appendParam_fits (param : String × CString) (url : CString) (short : param.2.length < 256)
    (room : (url ++ parameter param).length < 4096) :
    appendParam 4096 param.1 param.2 url = url ++ parameter param := by
  have value : snprintf 256 param.2 = param.2 := List.take_of_length_le (by omega)
  have size : (url ++ parameter param).length =
      url.length + (param.1.length + param.2.length + 2) := by
    simp [parameter, String.length_toList]
    omega
  unfold appendParam
  rw [value, if_neg (by omega), List.append_assoc]
  rfl

theorem appendParams_fit (params : List (String × CString)) (url : CString)
    (short : ∀ param ∈ params, param.2.length < 256)
    (room : (url ++ params.flatMap parameter).length < 4096) :
    params.foldl (fun url param => appendParam 4096 param.1 param.2 url) url =
      url ++ params.flatMap parameter := by
  induction params generalizing url with
  | nil => simp
  | cons param rest ih =>
      rw [List.flatMap_cons, ← List.append_assoc] at room ⊢
      have first : (url ++ parameter param).length < 4096 := by
        rw [List.length_append] at room
        omega
      rw [List.foldl_cons, appendParam_fits param url (short param List.mem_cons_self) first]
      exact ih _ (fun other member => short other (List.mem_cons_of_mem _ member)) room

theorem appendParam_extends (param : String × CString) (url : CString) :
    url <+: appendParam 4096 param.1 param.2 url := by
  unfold appendParam
  simp only
  split
  · exact List.prefix_rfl
  · rw [List.append_assoc]
    exact List.prefix_append _ _

theorem appendParams_extend (params : List (String × CString)) (url : CString) :
    url <+: params.foldl (fun url param => appendParam 4096 param.1 param.2 url) url := by
  induction params generalizing url with
  | nil => exact List.prefix_rfl
  | cons param rest ih => exact (appendParam_extends param url).trans (ih _)

/-! ## The URL of `gs_start_app` -/

def IsInt (value : Int) : Prop := -2147483648 ≤ value ∧ value ≤ 2147483647

/-- The arguments of `gs_start_app` that are printed with `%d`. -/
structure IntArguments (config : StreamConfig) (launch : Launch) : Prop where
  width : IsInt config.width
  height : IsInt config.height
  fps : IsInt config.fps
  appId : IsInt launch.appId
  gamepadMask : IsInt launch.gamepadMask

/-- Bounds on the name and the text of every parameter of a launch. -/
def ShortParam (param : String × CString) : Prop := param.1.length ≤ 34 ∧ param.2.length ≤ 35

theorem shortParam_mk {name : String} {text : CString} (shortName : name.length ≤ 34)
    (shortText : text.length ≤ 35) : ShortParam (name, text) :=
  ⟨shortName, shortText⟩

theorem decimal_int_length {value : Int} (int : IsInt value) : (decimal value).length ≤ 11 :=
  decimal_length int.1 int.2

theorem isInt_toInt32 (word : Nat) : IsInt (toInt32 word) := by
  unfold IsInt toInt32
  split
  · omega
  · omega

theorem boolText_length (value : Bool) : (boolText value).length = 1 := by
  cases value with
  | true => rfl
  | false => rfl

theorem launchParams_short {config : StreamConfig} {launch : Launch}
    (ints : IntArguments config launch) (resume : Bool) {key : List UInt8} (size : key.length = 16)
    (iv : List UInt8) :
    ∀ param ∈ launchParams config launch resume key iv, ShortParam param := by
  have width := decimal_int_length ints.width
  have height := decimal_int_length ints.height
  have mask := decimal_int_length ints.gamepadMask
  have fps : (decimal (if launch.isGfe && decide (60 < config.fps) then 0
      else config.fps)).length ≤ 11 := by
    split
    · decide
    · exact decimal_int_length ints.fps
  have hex : (bytesToHex key).length = 32 := by rw [bytesToHex_length, size]
  have rikeyid : (decimal (rikeyid iv)).length ≤ 11 := decimal_int_length (isInt_toInt32 _)
  have surround : (decimal (surroundAudioInfo config.audioConfiguration)).length ≤ 11 :=
    decimal_int_length (isInt_toInt32 _)
  have bit (value : Bool) : (boolText value).length ≤ 35 := by
    rw [boolText_length]
    decide
  unfold launchParams
  simp only [List.forall_mem_append, List.forall_mem_cons]
  refine ⟨⟨shortParam_mk (by decide) ?_, shortParam_mk (by decide) (by decide),
    shortParam_mk (by decide) (bit _), shortParam_mk (by decide) (by omega),
    shortParam_mk (by decide) (by omega), shortParam_mk (by decide) (by omega),
    List.forall_mem_nil _⟩, ?_⟩
  · simp only [List.length_append, List.length_cons]
    omega
  · split
    · simp only [List.forall_mem_append, List.forall_mem_cons]
      refine ⟨?_, shortParam_mk (by decide) (bit _), shortParam_mk (by decide) (by omega),
        shortParam_mk (by decide) (by omega), List.forall_mem_nil _⟩
      split
      · simp only [List.forall_mem_cons]
        exact ⟨shortParam_mk (by decide) (by decide), shortParam_mk (by decide) (by decide),
          shortParam_mk (by decide) (by decide), shortParam_mk (by decide) (by decide),
          shortParam_mk (by decide) (by decide), List.forall_mem_nil _⟩
      · exact List.forall_mem_nil _
    · exact List.forall_mem_nil _

theorem flatMap_parameter_length (params : List (String × CString))
    (short : ∀ param ∈ params, ShortParam param) :
    (params.flatMap parameter).length ≤ 71 * params.length := by
  induction params with
  | nil => rfl
  | cons param rest ih =>
      have first := short param List.mem_cons_self
      have later := ih fun other member => short other (List.mem_cons_of_mem _ member)
      unfold ShortParam at first
      simp only [List.flatMap_cons, List.length_append, List.length_cons, parameter,
        String.length_toList]
      omega

theorem launchParams_count (config : StreamConfig) (launch : Launch) (resume : Bool)
    (key iv : List UInt8) : (launchParams config launch resume key iv).length ≤ 14 := by
  unfold launchParams
  simp only [List.length_append, apply_ite List.length, List.length_cons, List.length_nil]
  split
  · split
    · decide
    · decide
  · decide

theorem strlcat_fits (url text : CString) (room : (url ++ text).length < 4096) :
    strlcat 4096 url text = url ++ text := by
  unfold strlcat
  rw [List.take_of_length_le]
  rw [List.length_append] at room
  omega

theorem launchUrl_extends (config : StreamConfig) (launch : Launch) (resume : Bool)
    (key iv : List UInt8) (url : CString) : url <+: launchUrl config launch resume key iv url :=
  (appendParams_extend _ url).trans (List.prefix_append _ _)

/-- The part of a launch that `construct_url` prints. -/
def launchStart (launch : Launch) (resume : Bool) : IntendedRequest where
  secure := true
  action := if resume then "launch" else "resume"
  params := [("appid", decimal launch.appId)]
  extra := []

def launchRequest (config : StreamConfig) (launch : Launch) (resume : Bool)
    (key iv : List UInt8) : IntendedRequest where
  secure := true
  action := if resume then "launch" else "resume"
  params := ("appid", decimal launch.appId) :: launchParams config launch resume key iv
  extra := launchUrlQueryParameters

theorem launchRequest_target (config : StreamConfig) (launch : Launch) (resume : Bool)
    (key iv : List UInt8) (client : Client) (uuid : CString) :
    (launchRequest config launch resume key iv).target client uuid =
      (launchStart launch resume).target client uuid ++
        (launchParams config launch resume key iv).flatMap parameter ++
          launchUrlQueryParameters := by
  simp [launchRequest, launchStart, IntendedRequest.target]

theorem launchStart_length {launch : Launch} (appId : IsInt launch.appId) (resume : Bool)
    {client : Client} (identified : client.uniqueId.length ≤ 16) {uuid : CString}
    (known : uuid.length = 36) :
    ((launchStart launch resume).target client uuid).length ≤ 92 := by
  have digits := decimal_int_length appId
  have name : "appid".toList.length = 5 := by decide
  cases resume with
  | true =>
      simp [launchStart, IntendedRequest.target, parameter, known]
      omega
  | false =>
      simp [launchStart, IntendedRequest.target, parameter, known]
      omega

theorem launchParams_length {config : StreamConfig} {launch : Launch}
    (ints : IntArguments config launch) (resume : Bool) {key : List UInt8} (size : key.length = 16)
    (iv : List UInt8) :
    ((launchParams config launch resume key iv).flatMap parameter).length ≤ 994 := by
  have bound := flatMap_parameter_length _ (launchParams_short ints resume size iv)
  have count := launchParams_count config launch resume key iv
  omega

section Launch

variable (memory : Nat → Char) {address : CString} (noColon : ':' ∉ address)
  (noSlash : '/' ∉ address) {client : Client} (identified : client.uniqueId.length ≤ 16)
  {uuid : CString} (known : uuid.length = 36)

include noColon noSlash identified known

/-- No parameter of a launch is dropped or cut unless the host is refused. -/
theorem launchUrl_arrives {config : StreamConfig} {launch : Launch}
    (ints : IntArguments config launch) (resume : Bool) {key : List UInt8} (size : key.length = 16)
    (iv : List UInt8) :
    Arrives memory client uuid address (launchRequest config launch resume key iv)
      (launchUrl config launch resume key iv
        (constructUrl client uuid 4096 true address (if resume then "launch" else "resume").toList
          (some ("appid=".toList ++ decimal launch.appId)))) := by
  have startLength := launchStart_length ints.appId resume identified known
  have paramsLength := launchParams_length ints resume size iv
  have extraLength : launchUrlQueryParameters.length < 1024 := by decide
  have prints : Prints (launchStart launch resume)
      (some ("appid=".toList ++ decimal launch.appId)) := by
    simp [Prints, launchStart, parameter]
  have digits := decimal_int_length ints.appId
  have started : printedPath client uuid (if resume then "launch" else "resume").toList
      (some ("appid=".toList ++ decimal launch.appId)) =
        (launchStart launch resume).target client uuid := by
    apply printedPath_eq_target known prints
    rintro text ⟨⟩
    have name : "appid=".toList.length = 6 := by decide
    rw [List.length_append]
    omega
  rw [constructUrl_eq, started]
  by_cases longHost : 256 ≤ address.length
  · obtain ⟨more, extended⟩ := launchUrl_extends config launch resume key iv (snprintf 4096
      (urlText true address ((launchStart launch resume).target client uuid)))
    rw [← extended]
    exact .inl (long_host_refused memory true noColon noSlash _ more _ (by decide) longHost)
  · have shortHost : address.length < 256 := by omega
    have front (path : CString) (bound : path.length ≤ 3000) :
        (urlText true address path).length < 4096 := by
      have length := urlText_length true path shortHost
      omega
    have target := launchRequest_target config launch resume key iv client uuid
    have whole : launchUrl config launch resume key iv (urlText true address
        ((launchStart launch resume).target client uuid)) =
        urlText true address ((launchRequest config launch resume key iv).target client uuid) := by
      unfold launchUrl
      rw [appendParams_fit, strlcat_fits, urlText_append, urlText_append, target]
      · rw [urlText_append, urlText_append]
        apply front
        simp only [List.length_append]
        omega
      · intro param member
        have short := launchParams_short ints resume size iv param member
        unfold ShortParam at short
        omega
      · rw [urlText_append]
        apply front
        rw [List.length_append]
        omega
    rw [short_path_whole true _ _ shortHost (by omega), whole]
    refine complete_arrives memory true noColon noSlash client uuid _ rfl fun _ => ?_
    rw [target]
    simp only [List.length_append]
    omega

end Launch

end MoonlightWii.Gamestream.RequestTarget
