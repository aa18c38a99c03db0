import Pdfv.Core.Types
/-!
# Code outside the repository

The decompressors, hashes and ciphers come from other crates. `Crates` collects them as functions;
the model is parametric in it.
-/

namespace Pdfv

/-- What a `Read` yields: the non-empty pieces returned by successive calls, then end of stream or
an error with its text. -/
structure ReadRun where
  pieces : List Bytes
  failure : Option String

/-- The functions of the other crates that the parser calls. -/
structure Crates where
  /-- `flate2::read::ZlibDecoder`. -/
  zlib : Bytes → ReadRun
  /-- `flate2::read::DeflateDecoder`. -/
  deflate : Bytes → ReadRun
  /-- `Md5::digest`. -/
  md5 : Bytes → Bytes
  /-- `Sha256::digest`. -/
  sha256 : Bytes → Bytes
  /-- `Sha384::digest`. -/
  sha384 : Bytes → Bytes
  /-- `Sha512::digest`. -/
  sha512 : Bytes → Bytes
  /-- `Rc4::new_from_slice(key)` and `apply_keystream`; nothing when the key is refused. -/
  rc4 : Bytes → Bytes → Option Bytes
  /-- AES-128-CBC decryption under key and IV with PKCS#7 padding removed. -/
  aes128CbcDecryptPkcs7 : Bytes → Bytes → Bytes → Option Bytes
  /-- AES-256-CBC decryption under key and IV with PKCS#7 padding removed. -/
  aes256CbcDecryptPkcs7 : Bytes → Bytes → Bytes → Option Bytes
  /-- AES-256-CBC decryption under key and IV without padding. -/
  aes256CbcDecrypt : Bytes → Bytes → Bytes → Option Bytes
  /-- AES-128-CBC encryption under key and IV without padding. -/
  aes128CbcEncrypt : Bytes → Bytes → Bytes → Option Bytes
  /-- One AES-256 block decryption. -/
  aes256DecryptBlock : Bytes → Bytes → Bytes

/-- Functions that refuse or drop every input, for sources on which none of them is called. -/
def Crates.unused : Crates where
  zlib _ := ⟨[], some "unused"⟩
  deflate _ := ⟨[], some "unused"⟩
  md5 _ := []
  sha256 _ := []
  sha384 _ := []
  sha512 _ := []
  rc4 _ _ := none
  aes128CbcDecryptPkcs7 _ _ _ := none
  aes256CbcDecryptPkcs7 _ _ _ := none
  aes256CbcDecrypt _ _ _ := none
  aes128CbcEncrypt _ _ _ := none
  aes256DecryptBlock _ _ := []

end Pdfv
