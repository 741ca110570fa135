import DepBundle.Digest.Xxh3
/-!
# Digests — as text

A digest is written in the URL-safe base-64 alphabet without padding, and
cut to a few characters where it becomes part of a file name.
-/

namespace DepBundle.Digest

/-- The URL-safe alphabet. -/
def alphabet : List Char :=
  "ABCDEFGHIJKLMNOPQRSTUVWXYZabcdefghijklmnopqrstuvwxyz0123456789-_".toList

/-- The character for a number below 64. -/
def base64Char (n : Nat) : Char := alphabet.getD n '_'

/-- Bytes in base 64, three at a time, the last group cut short. -/
def base64 : List UInt8 → List Char
  | [] => []
  | [a] => [base64Char (a.toNat / 4), base64Char (a.toNat % 4 * 16)]
  | [a, b] =>
    [base64Char (a.toNat / 4), base64Char (a.toNat % 4 * 16 + b.toNat / 16),
     base64Char (b.toNat % 16 * 4)]
  | a :: b :: c :: rest =>
    base64Char (a.toNat / 4) :: base64Char (a.toNat % 4 * 16 + b.toNat / 16) ::
      base64Char (b.toNat % 16 * 4 + c.toNat / 64) :: base64Char (c.toNat % 64) :: base64 rest

/-- The digest of a byte string as text. -/
def full (bytes : ByteArray) : String := String.ofList (base64 (Xxh3.digest bytes))

/-- The first `n` characters of the digest. -/
def short (bytes : ByteArray) (n : Nat) : String :=
  String.ofList ((base64 (Xxh3.digest bytes)).take n)

end DepBundle.Digest
