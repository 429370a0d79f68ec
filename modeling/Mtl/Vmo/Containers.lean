import Mathlib.Logic.Equiv.Defs
import Mtl.Magenta

/-! The conversions of `vmo.cc` between byte containers and VMOs. A conversion is given what the kernel
calls that it may make return. -/
namespace Mtl.Vmo

/-- The element types of the containers. -/
class ByteType (α : Type) where
  byte : α ≃ UInt8

/-- `uint8_t` and `char`. -/
instance : ByteType UInt8 := ⟨Equiv.refl UInt8⟩
instance : ByteType Int8 := ⟨⟨Int8.toUInt8, UInt8.toInt8, fun _ => rfl, fun _ => rfl⟩⟩

/-- A VMO, whose size is what `get_size` reports. -/
structure MxVmo where
  bytes : List UInt8
  deriving DecidableEq

/-- A `write` or `read` that moved a prefix and reports its length. -/
structure Transfer where
  status : MxStatus
  actual : Nat
  deriving DecidableEq

/-- The test `status < 0`. -/
def isError : MxStatus → Bool
  | .ok => false
  | .other code => code < 0
  | _ => true

/-- The bytes `new` in the place of the first ones. -/
def overwrite {α : Type} (old new : List α) : List α := new ++ old.drop new.length

namespace MxVmo

/-- A new VMO is filled with zeros. -/
def create (numBytes : Nat) : MxVmo := ⟨List.replicate numBytes 0⟩

def write (vmo : MxVmo) (data : List UInt8) (actual : Nat) : MxVmo := ⟨overwrite vmo.bytes (data.take actual)⟩

def read (vmo : MxVmo) (numBytes actual : Nat) : List UInt8 := (vmo.bytes.take numBytes).take actual

end MxVmo

section Containers
variable {α : Type} [ByteType α]

/-- The VMO in `handle_ptr`, if one was created, and what was returned. -/
def vmoFromContainer (container : List α) (create : MxStatus) (write : Transfer) : Option MxVmo × Bool :=
  let numBytes := container.length
  if isError create then (none, false)
  else
    let vmo := MxVmo.create numBytes
    if numBytes = 0 then (some vmo, true)
    else
      let vmo := vmo.write (container.map ByteType.byte) write.actual
      if isError write.status then (some vmo, false)
      else if write.actual ≠ numBytes then (some vmo, false)
      else (some vmo, true)

/-- `resize` keeps what fits and adds zeros. -/
def resize (container : List α) (numBytes : Nat) : List α :=
  container.take numBytes ++ List.replicate (numBytes - container.length) (ByteType.byte.symm 0)

/-- The container after the call, and what was returned. -/
def containerFromVmo (buffer : MxVmo) (getSize : MxStatus) (read : Transfer) (container : List α) : List α × Bool :=
  if getSize ≠ .ok then (container, false)
  else
    let numBytes := buffer.bytes.length
    let container := resize container numBytes
    if numBytes = 0 then (container, true)
    else
      let container := overwrite container ((buffer.read numBytes read.actual).map ByteType.byte.symm)
      if isError read.status then (container, false)
      else if read.actual ≠ numBytes then (container, false)
      else (container, true)

end Containers

def vmoFromString (string : List Int8) (create : MxStatus) (write : Transfer) : Option MxVmo × Bool :=
  vmoFromContainer string create write

def stringFromVmo (sharedBuffer : MxVmo) (getSize : MxStatus) (read : Transfer) (string : List Int8) : List Int8 × Bool :=
  containerFromVmo sharedBuffer getSize read string

/-- `VmoFromVector` and `VectorFromVmo`, for vectors of `char` and of `uint8_t`. -/
def vmoFromCharVector (vector : List Int8) (create : MxStatus) (write : Transfer) : Option MxVmo × Bool :=
  vmoFromContainer vector create write

def charVectorFromVmo (sharedBuffer : MxVmo) (getSize : MxStatus) (read : Transfer) (vector : List Int8) :
    List Int8 × Bool := containerFromVmo sharedBuffer getSize read vector

def vmoFromByteVector (vector : List UInt8) (create : MxStatus) (write : Transfer) : Option MxVmo × Bool :=
  vmoFromContainer vector create write

def byteVectorFromVmo (sharedBuffer : MxVmo) (getSize : MxStatus) (read : Transfer) (vector : List UInt8) :
    List UInt8 × Bool := containerFromVmo sharedBuffer getSize read vector

/-- One of the three conversions to a VMO, from the bytes of its container. -/
inductive VmoWriter where
  | string | charVector | byteVector

def VmoWriter.write (bytes : List UInt8) (create : MxStatus) (write : Transfer) : VmoWriter → Option MxVmo × Bool
  | .string => vmoFromString (bytes.map ByteType.byte.symm) create write
  | .charVector => vmoFromCharVector (bytes.map ByteType.byte.symm) create write
  | .byteVector => vmoFromByteVector (bytes.map ByteType.byte.symm) create write

/-- One of the three conversions from a VMO, with the bytes that its container has before and after. -/
inductive VmoReader where
  | string | charVector | byteVector

def VmoReader.read (vmo : MxVmo) (getSize : MxStatus) (read : Transfer) (previous : List UInt8) :
    VmoReader → List UInt8 × Bool
  | .string => (stringFromVmo vmo getSize read (previous.map ByteType.byte.symm)).map (·.map ByteType.byte) id
  | .charVector => (charVectorFromVmo vmo getSize read (previous.map ByteType.byte.symm)).map (·.map ByteType.byte) id
  | .byteVector => (byteVectorFromVmo vmo getSize read (previous.map ByteType.byte.symm)).map (·.map ByteType.byte) id

section RoundTrip
variable {α : Type} [ByteType α]

end RoundTrip

end Mtl.Vmo
