import MoonlightWii.Gamestream.Request
import MoonlightWii.Gamestream.Crypto

/-!
# The client's identity (`gs_conf_load` in `conf.c`)

The directory's files come as what opening, reading and parsing them gives.
-/

set_option autoImplicit false

namespace MoonlightWii.Gamestream.Conf

open MoonlightWii.Gamestream.Crypto
open MoonlightWii.Gamestream.Errors
open MoonlightWii.Gamestream.Request
open MoonlightWii.Gamestream.Xml

structure KeyDirectory where
  keydir : CString
  /-- The bytes of `uniqueid.dat`, or `strerror(errno)`. -/
  uniqueId : Except CString (List UInt8)
  /-- `mbedtls_x509_crt_parse_file` of `client.pem`, or the text of its error. -/
  certificate : Except CString Certificate
  /-- The bytes of `client.pem` when it opens. -/
  certFile : Option (List UInt8)
  /-- The text of the error of `mbed_parse_key` on `key.pem`. -/
  keyError : Option CString

def pathMax : Nat := 1024

def KeyDirectory.path (directory : KeyDirectory) (name : String) : CString :=
  snprintf pathMax (directory.keydir ++ '/' :: name.toList)

/-- `return gs_set_error(code, text)`. -/
def refuse {α : Type} (code : Int) (text : CString) : Reported (Except Int α) :=
  ⟨.error code, some (gsSetError code text)⟩

/-- The C string at the first of some bytes. -/
def cString (bytes : List UInt8) : CString :=
  (bytes.takeWhile fun byte => byte ≠ 0).map fun byte => Char.ofNat byte.toNat

def uniqueIdChars : Nat := 16

def loadUniqueId (directory : KeyDirectory) : Reported (Except Int CString) :=
  match directory.uniqueId with
  | .error errno =>
      refuse gsBadConf ("Failed to open unique ID file ".toList ++
        directory.path "uniqueid.dat" ++ ": ".toList ++ errno)
  | .ok bytes =>
      if bytes.length < uniqueIdChars then refuse gsBadConf "Bad unique ID file".toList
      else ⟨.ok (cString (bytes.take uniqueIdChars)), none⟩

/-- The loop over the bytes of the certificate, into a buffer of `size` bytes. -/
def readCertHex (size : Nat) : List UInt8 → CString → CString
  | [], hex => hex
  | byte :: rest, hex =>
      if size ≤ hex.length + 2 then hex else readCertHex size rest (hex ++ bytesToHex [byte])

structure LoadedCert where
  certHex : CString
  certSig : List UInt8

def loadCert (directory : KeyDirectory) : Reported (Except Int LoadedCert) :=
  match directory.certificate with
  | .error text => refuse gsFailed ("Failed to parse certificate: ".toList ++ snprintf 512 text)
  | .ok certificate =>
      match directory.certFile with
      | none =>
          refuse gsIoError ("Failed to open certFile ".toList ++ directory.path "client.pem" ++
            " for reading".toList)
      | some bytes =>
          match directory.keyError with
          | some text =>
              refuse gsFailed ("Error loading key into memory: ".toList ++ snprintf 512 text)
          | none => ⟨.ok ⟨readCertHex 8192 bytes [], certificate.sig⟩, none⟩

def gsConfLoad (directory : KeyDirectory) : Reported (Except Int Client) :=
  match loadUniqueId directory with
  | ⟨.error code, recorded⟩ => ⟨.error code, recorded⟩
  | ⟨.ok uniqueId, _⟩ =>
      match loadCert directory with
      | ⟨.error code, recorded⟩ => ⟨.error code, recorded⟩
      | ⟨.ok cert, recorded⟩ => ⟨.ok ⟨uniqueId, cert.certHex, cert.certSig⟩, recorded⟩

/-! ## What a loaded client holds -/

theorem bytesToHex_length (bytes : List UInt8) :
    (bytesToHex bytes).length = 2 * bytes.length := by
  unfold bytesToHex
  induction bytes with
  | nil => rfl
  | cons byte rest ih =>
      rw [List.flatMap_cons, List.length_append, ih]
      simp only [List.length_cons, List.length_nil]
      omega

/-- The loop stops at the last pair of digits that leaves room for the terminator. -/
theorem readCertHex_eq (size : Nat) (bytes : List UInt8) (hex : CString) :
    readCertHex size bytes hex = hex ++ bytesToHex (bytes.take ((size - 1 - hex.length) / 2)) := by
  induction bytes generalizing hex with
  | nil => simp [readCertHex, bytesToHex]
  | cons byte rest ih =>
      unfold readCertHex
      by_cases full : size ≤ hex.length + 2
      · have none : (size - 1 - hex.length) / 2 = 0 := by omega
        rw [if_pos full, none]
        simp [bytesToHex]
      · have digits : (hex ++ bytesToHex [byte]).length = hex.length + 2 := by
          rw [List.length_append, bytesToHex_length]
          rfl
        have room : (size - 1 - hex.length) / 2 =
            (size - 1 - (hex ++ bytesToHex [byte]).length) / 2 + 1 := by
          rw [digits]
          omega
        rw [if_neg full, ih, room, List.take_succ_cons, List.append_assoc]
        rfl

theorem loadUniqueId_ok {directory : KeyDirectory} {uniqueId : CString}
    (loaded : (loadUniqueId directory).result = .ok uniqueId) :
    uniqueId.length ≤ uniqueIdChars := by
  unfold loadUniqueId at loaded
  cases read : directory.uniqueId with
  | error errno =>
      rw [read] at loaded
      cases loaded
  | ok bytes =>
      rw [read] at loaded
      simp only at loaded
      split at loaded
      · cases loaded
      · cases loaded
        unfold cString
        rw [List.length_map]
        exact Nat.le_trans (List.takeWhile_sublist _).length_le (List.length_take_le _ _)

theorem loadCert_ok {directory : KeyDirectory} {cert : LoadedCert}
    (loaded : (loadCert directory).result = .ok cert) :
    ∃ file, directory.certFile = some file ∧ cert.certHex = readCertHex 8192 file [] := by
  unfold loadCert at loaded
  cases parsed : directory.certificate with
  | error text =>
      rw [parsed] at loaded
      cases loaded
  | ok certificate =>
      cases opened : directory.certFile with
      | none =>
          rw [parsed, opened] at loaded
          cases loaded
      | some file =>
          cases key : directory.keyError with
          | some text =>
              rw [parsed, opened, key] at loaded
              cases loaded
          | none =>
              rw [parsed, opened, key] at loaded
              cases loaded
              exact ⟨file, rfl, rfl⟩

/-- The unique id has at most 16 characters, and only the first 4095 bytes of the
certificate are kept. -/
theorem gsConfLoad_ok {directory : KeyDirectory} {client : Client}
    (loaded : (gsConfLoad directory).result = .ok client) :
    client.uniqueId.length ≤ uniqueIdChars ∧
      ∃ file, directory.certFile = some file ∧
        client.certHex = bytesToHex (file.take 4095) := by
  unfold gsConfLoad at loaded
  split at loaded
  · cases loaded
  · rename_i uniqueId _ identified
    split at loaded
    · cases loaded
    · rename_i cert _ certified
      cases loaded
      obtain ⟨file, opened, hex⟩ := loadCert_ok (congrArg Reported.result certified)
      refine ⟨loadUniqueId_ok (congrArg Reported.result identified), file, opened, ?_⟩
      rw [hex, readCertHex_eq]
      rfl

end MoonlightWii.Gamestream.Conf
