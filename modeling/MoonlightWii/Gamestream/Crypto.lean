import Mathlib.Data.List.Basic
import MoonlightWii.Gamestream.Errors

/-!
# Bytes, hex text and the crypto primitives (`client.c`, `crypto.h`)

The primitives of mbedtls are parameters.  A C buffer that is only filled up to
some length keeps the bytes that were on the stack before; these are arbitrary.
-/

set_option autoImplicit false

namespace MoonlightWii.Gamestream.Crypto

open MoonlightWii.Gamestream.Errors

/-! ## Hex text -/

def hexDigit (value : Nat) : Char := "0123456789abcdef".toList.getD value '0'

def bytesToHex (bytes : List UInt8) : CString :=
  bytes.flatMap fun byte => [hexDigit (byte.toNat / 16), hexDigit (byte.toNat % 16)]

/-- The entry of `map_table` for a character from `0` to `f`. -/
def mapTable (char : Char) : Nat :=
  if '0' ≤ char ∧ char ≤ '9' then char.toNat - '0'.toNat
  else if 'A' ≤ char ∧ char ≤ 'F' then char.toNat - 'A'.toNat + 10
  else if 'a' ≤ char ∧ char ≤ 'f' then char.toNat - 'a'.toNat + 10
  else 0

/-- The bytes of the pairs up to the first character outside `0` to `f`, and
whether there was none. -/
def decodePairs : CString → List UInt8 × Bool
  | high :: low :: rest =>
      if high < '0' ∨ 'f' < high ∨ low < '0' ∨ 'f' < low then ([], false)
      else
        let later := decodePairs rest
        (UInt8.ofNat (mapTable high * 16 + mapTable low) :: later.1, later.2)
  | _ => ([], true)

/-- `hex_to_bytes`: the bytes it writes, and the length if it stores one. -/
def hexToBytes (text : CString) (maxlen : Nat) : List UInt8 × Option Nat :=
  if text.length % 2 = 1 then ([], none)
  else
    let inl := if maxlen < text.length / 2 then maxlen * 2 else text.length
    let decoded := decodePairs (text.take inl)
    (decoded.1, if decoded.2 then some (inl / 2) else none)

/-! ## mbedtls -/

inductive HashAlgo where
  | sha1
  | sha256
  deriving DecidableEq

inductive AesMode where
  | encrypt
  | decrypt

structure Certificate where
  text : List UInt8
  sig : List UInt8

structure Mbedtls where
  sha1 : List UInt8 → List UInt8
  sha256 : List UInt8 → List UInt8
  sha1_length : ∀ input, (sha1 input).length = 20
  sha256_length : ∀ input, (sha256 input).length = 32
  /-- `mbedtls_aes_crypt_ecb` with a 128 bit key on one block. -/
  aesCryptEcb : AesMode → List UInt8 → List UInt8 → Option (List UInt8)
  x509CrtParse : List UInt8 → Option Certificate
  /-- `mbedtls_pk_verify` of a SHA-256 hash and a signature. -/
  pkVerify : Certificate → List UInt8 → List UInt8 → Int
  /-- `mbedtls_pk_sign` of a SHA-256 hash with the client's key. -/
  pkSign : List UInt8 → Option (List UInt8)

def HashAlgo.length : HashAlgo → Nat
  | .sha1 => 20
  | .sha256 => 32

def hashData (mbedtls : Mbedtls) : HashAlgo → List UInt8 → List UInt8
  | .sha1, input => mbedtls.sha1 input
  | .sha256, input => mbedtls.sha256 input

/-- `crypt_data` over whole blocks: the bytes it writes, and whether every block
succeeded. -/
def cryptData (ecb : List UInt8 → Option (List UInt8)) : Nat → List UInt8 → List UInt8 × Bool
  | 0, _ => ([], true)
  | blocks + 1, input =>
      match ecb (input.take 16) with
      | none => ([], false)
      | some output =>
          let later := cryptData ecb blocks (input.drop 16)
          (output ++ later.1, later.2)

def verifySignature (mbedtls : Mbedtls) (msg sig : List UInt8) (cert : Certificate) : Bool :=
  mbedtls.pkVerify cert (mbedtls.sha256 msg) sig == 0

def generateSignature (mbedtls : Mbedtls) (msg : List UInt8) : Option (List UInt8) :=
  mbedtls.pkSign (mbedtls.sha256 msg)

/-! ## Partly filled buffers -/

/-- The buffers of `gs_pair` that are read beyond what was written to them. -/
inductive Stale where
  | encServerChallengeResponse
  | decServerChallengeResponse
  | clientCertSignature
  | challengeResponseEncrypted
  | pairingSecret
  | serverCertSignature
  | clientPairingSecret

/-- The indeterminate values of one call: the bytes of each buffer, and
`challenge_resp_len` when `hex_to_bytes` does not set it. -/
structure Stack where
  bytes : Stale → Nat → UInt8
  challengeRespLen : Nat

/-- A buffer of `size` bytes of which the first have been written. -/
def filled (stack : Stack) (buffer : Stale) (size : Nat) (written : List UInt8) : List UInt8 :=
  (List.range size).map fun index => written[index]?.getD (stack.bytes buffer index)

@[simp] theorem filled_length (stack : Stack) (buffer : Stale) (size : Nat)
    (written : List UInt8) : (filled stack buffer size written).length = size := by
  simp [filled]

end MoonlightWii.Gamestream.Crypto
