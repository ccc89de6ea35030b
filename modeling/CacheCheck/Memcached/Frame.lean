import CacheCheck.Text.Utf8

/-!
Frames of the binary protocol: a header of 24 bytes, with the lengths of the parts, and then the
extras, the key and the value. Numbers are written with their highest byte first.
-/

set_option autoImplicit false

namespace CacheCheck.Memcached

/-- A number as so many bytes, the highest first. -/
def bigEndian : Nat → Nat → List UInt8
  | 0, _ => []
  | width + 1, n => bigEndian width (n / 256) ++ [UInt8.ofNat (n % 256)]

/-- The number that bytes make, the highest first. -/
def ofBigEndian (bytes : List UInt8) : Nat :=
  bytes.foldl (fun n b ↦ n * 256 + b.toNat) 0

@[simp] theorem length_bigEndian (width n : Nat) : (bigEndian width n).length = width := by
  induction width generalizing n with
  | zero => rfl
  | succ width ih => simp [bigEndian, ih]

theorem ofBigEndian_append_singleton (bytes : List UInt8) (b : UInt8) :
    ofBigEndian (bytes ++ [b]) = ofBigEndian bytes * 256 + b.toNat := by
  simp [ofBigEndian]

theorem ofBigEndian_bigEndian {width n : Nat} (h : n < Nat.pow 256 width) :
    ofBigEndian (bigEndian width n) = n := by
  induction width generalizing n with
  | zero =>
    have : n = 0 := by simpa using h
    subst this
    rfl
  | succ width ih =>
    have hdiv : n / 256 < Nat.pow 256 width := by
      rw [Nat.div_lt_iff_lt_mul (by omega)]
      exact h
    rw [bigEndian, ofBigEndian_append_singleton, ih hdiv]
    have : (UInt8.ofNat (n % 256)).toNat = n % 256 := by
      rw [UInt8.toNat_ofNat']
      exact Nat.mod_eq_of_lt (Nat.mod_lt _ (by omega))
    rw [this]
    omega

/-- The first byte of a request and of a response. -/
def requestMark : UInt8 := 0x80

@[inherit_doc requestMark] def responseMark : UInt8 := 0x81

/-- What every frame's header is long. -/
def headerLength : Nat := 24

/-- A request. The key is text; a key that is no text is read with its faults replaced. -/
structure Request where
  opcode : UInt8
  /-- A number of the client's choice, which the response repeats. -/
  echo : UInt32
  extras : List UInt8
  key : String
  value : List UInt8
  deriving DecidableEq, Repr

/-- The header fields that have no bearing on how a request is served. -/
structure Reserved where
  dataType : UInt8 := 0
  bucket : UInt16 := 0
  generation : UInt64 := 0
  deriving DecidableEq, Repr

/-- A frame with the key as bytes. -/
def frame (reserved : Reserved) (opcode : UInt8) (echo : UInt32) (extras key value : List UInt8) :
    List UInt8 :=
  [requestMark, opcode] ++ bigEndian 2 key.length ++ bigEndian 1 extras.length ++
    [reserved.dataType] ++ bigEndian 2 reserved.bucket.toNat ++
    bigEndian 4 (extras.length + key.length + value.length) ++ bigEndian 4 echo.toNat ++
    bigEndian 8 reserved.generation.toNat ++ extras ++ key ++ value

/-- The frame of a request. -/
def Request.pack (request : Request) (reserved : Reserved := {}) : List UInt8 :=
  frame reserved request.opcode request.echo request.extras (Utf8.encode request.key) request.value

/-- The fields of a header. -/
structure Header where
  mark : UInt8
  opcode : UInt8
  keyLength : Nat
  extrasLength : Nat
  status : Nat
  bodyLength : Nat
  echo : UInt32
  deriving DecidableEq, Repr

/-- Reads the fields of a header; bytes that are missing count as zero. -/
def Header.ofBytes (bytes : List UInt8) : Header where
  mark := bytes.headD 0
  opcode := (bytes.drop 1).headD 0
  keyLength := ofBigEndian ((bytes.drop 2).take 2)
  extrasLength := ofBigEndian ((bytes.drop 4).take 1)
  status := ofBigEndian ((bytes.drop 6).take 2)
  bodyLength := ofBigEndian ((bytes.drop 8).take 4)
  echo := UInt32.ofNat (ofBigEndian ((bytes.drop 12).take 4))

/-- A response. -/
structure Response where
  opcode : UInt8
  echo : UInt32
  status : Nat
  extras : List UInt8
  value : List UInt8
  deriving DecidableEq, Repr

/-- The frame of a response. -/
def Response.pack (response : Response) : List UInt8 :=
  [responseMark, response.opcode, 0, 0] ++ bigEndian 1 response.extras.length ++ [0] ++
    bigEndian 2 response.status ++
    bigEndian 4 (response.extras.length + response.value.length) ++
    bigEndian 4 response.echo.toNat ++ List.replicate 8 0 ++ response.extras ++ response.value

end CacheCheck.Memcached
