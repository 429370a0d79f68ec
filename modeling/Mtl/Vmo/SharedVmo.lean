import Mathlib.Algebra.GroupWithZero.Nat
import Mathlib.Data.Finmap
import Mtl.Foundation.FiniteMap
import Mtl.Foundation.Machine
import Mtl.Magenta

/-! `SharedVmo`: any number of threads call `Map`, take and drop references. -/
namespace Mtl.Vmo
open Foundation

abbrev Address := Nat

/-- The regions of the root VMAR: addresses and sizes. -/
abbrev Vmar := Finmap fun _ : Address => Nat

/-- A call of `Map`: waiting for `call_once`, in its callable before and after the system call, past it, and back. -/
inductive MapCall where
  | waiting
  | mapping
  | mapped
  | reading
  | returned (address : Address)
  deriving DecidableEq

inductive OnceFlag where
  | fresh | active | done
  deriving DecidableEq

structure SharedVmo where
  vmo : MxHandle
  mapFlags : UInt32
  vmoSize : Nat
  mappingOnceFlag : OnceFlag := .fresh
  mapping : Address := 0

/-- The object with its references, the calls of `Map` in the order in which they began, and what the object mapped and
unmapped so far, the last region first. `mapCalls` counts the system calls. -/
structure VmoSharing where
  object : Option SharedVmo
  refs : Nat := 1
  vmar : Vmar
  calls : List MapCall := []
  mapCalls : Nat := 0
  mapped : List Address := []
  unmapped : List Address := []

namespace VmoSharing

/-- The constructor, with what `get_size` says, and the first reference. -/
def make (vmo : MxHandle) (mapFlags : UInt32) (getSize : MxStatus) (size : Nat) (vmar : Vmar) : Except Fault VmoSharing :=
  if vmo = 0 then .error (.dcheck "vmo_")
  else if getSize ≠ .ok then .error (.check "status == MX_OK")
  else .ok { object := some { vmo := vmo, mapFlags := mapFlags, vmoSize := size }, vmar := vmar }

/-- `mx::vmar::root_self().unmap` of a whole region, which goes if the call succeeds. -/
def unmap (s : VmoSharing) (address size : Nat) (status : MxStatus) : VmoSharing :=
  if status = .ok ∧ s.vmar.lookup address = some size then
    { s with vmar := s.vmar.erase address, unmapped := address :: s.unmapped }
  else s

/-- `Map` up to `call_once`. -/
def map (s : VmoSharing) : Except Fault VmoSharing :=
  match s.object with
  | none => .error (.useAfterFree 0)
  | some object =>
    .ok { s with calls := s.calls ++ [if object.vmo ≠ 0 ∧ object.mapFlags ≠ 0 then .waiting else .reading] }

/-- `call_once` begins the callable, or finds that it has been done. -/
def enterOnce (s : VmoSharing) (i : Nat) : Except Fault VmoSharing :=
  match s.object with
  | none => .error (.useAfterFree 0)
  | some object =>
    .ok { s with object := some { object with mappingOnceFlag := .active }, calls := s.calls.set i .mapping }

def passOnce (s : VmoSharing) (i : Nat) : VmoSharing := { s with calls := s.calls.set i .reading }

/-- `mx::vmar::root_self().map`, which writes `mapping_` only if it succeeds. -/
def vmarMap (s : VmoSharing) (i : Nat) (region : Option Address) : Except Fault VmoSharing :=
  match s.object, region with
  | none, _ => .error (.useAfterFree 0)
  | some _, none => .ok { s with calls := s.calls.set i .mapped, mapCalls := s.mapCalls + 1 }
  | some object, some address =>
    .ok { s with
      object := some { object with mapping := address }
      vmar := s.vmar.insert address object.vmoSize
      calls := s.calls.set i .mapped
      mapCalls := s.mapCalls + 1
      mapped := address :: s.mapped }

/-- The callable returns. -/
def leaveOnce (s : VmoSharing) (i : Nat) : Except Fault VmoSharing :=
  match s.object with
  | none => .error (.useAfterFree 0)
  | some object =>
    .ok { s with object := some { object with mappingOnceFlag := .done }, calls := s.calls.set i .reading }

/-- `return reinterpret_cast<void*>(mapping_)`. -/
def mapReturns (s : VmoSharing) (i : Nat) : Except Fault VmoSharing :=
  match s.object with
  | none => .error (.useAfterFree 0)
  | some object => .ok { s with calls := s.calls.set i (.returned object.mapping) }

/-- The destructor, with the status of its system call. -/
def destroy (s : VmoSharing) (status : MxStatus) : Except Fault VmoSharing :=
  match s.object with
  | none => .error (.doubleDelete 0)
  | some object =>
    if object.mapping ≠ 0 then
      let s := s.unmap object.mapping object.vmoSize status
      if status = .ok then .ok { s with object := none } else .error (.check "status == MX_OK")
    else .ok { s with object := none }

/-- `Release` of a reference; the last one destroys the object. -/
def release (s : VmoSharing) (status : MxStatus) : Except Fault VmoSharing :=
  let s := { s with refs := s.refs - 1 }
  if s.refs = 0 then s.destroy status else .ok s

/-- The kernel unmaps a region that the destructor names as a whole. -/
def UnmapsWhole (s : VmoSharing) (status : MxStatus) : Prop :=
  ∀ object, s.object = some object → s.vmar.lookup object.mapping = some object.vmoSize → status = .ok

end VmoSharing

inductive SharingAct where
  | addRef
  | release (status : MxStatus)
  | map
  | enterOnce (i : Nat)
  | passOnce (i : Nat)
  | vmarMap (i : Nat) (region : Option Address)
  | leaveOnce (i : Nat)
  | mapReturns (i : Nat)
  /-- Others map and unmap regions of their own. -/
  | mapOther (address size : Nat)
  | unmapOther (address : Address)
  deriving DecidableEq

/-- The call has not returned. -/
def MapCall.Unfinished : MapCall → Bool
  | .returned _ => false
  | _ => true

/-- References and calls of `Map` need a reference, which threads may share; the last one is dropped when no call is left.
`call_once` lets one caller in, and the others wait until that one is out. -/
def sharingMachine : Machine VmoSharing SharingAct Fault where
  Enabled s
    | .addRef | .map => 0 < s.refs
    | .release status => 0 < s.refs ∧ (s.refs = 1 → s.calls.countP MapCall.Unfinished = 0) ∧ s.UnmapsWhole status
    | .enterOnce i => s.calls[i]? = some .waiting ∧ s.object.map SharedVmo.mappingOnceFlag = some .fresh
    | .passOnce i => s.calls[i]? = some .waiting ∧ s.object.map SharedVmo.mappingOnceFlag = some .done
    | .vmarMap i region => s.calls[i]? = some .mapping ∧
        ∀ address, region = some address → address ≠ 0 ∧ s.vmar.lookup address = none
    | .leaveOnce i => s.calls[i]? = some .mapped
    | .mapReturns i => s.calls[i]? = some .reading
    | .mapOther address _ => address ≠ 0 ∧ s.vmar.lookup address = none
    | .unmapOther address => s.object.map SharedVmo.mapping ≠ some address
  step s
    | .addRef => .ok { s with refs := s.refs + 1 }
    | .release status => s.release status
    | .map => s.map
    | .enterOnce i => s.enterOnce i
    | .passOnce i => .ok (s.passOnce i)
    | .vmarMap i region => s.vmarMap i region
    | .leaveOnce i => s.leaveOnce i
    | .mapReturns i => s.mapReturns i
    | .mapOther address size => .ok { s with vmar := s.vmar.insert address size }
    | .unmapOther address => .ok { s with vmar := s.vmar.erase address }

/-- The call is past `call_once`. -/
def MapCall.Past : MapCall → Bool
  | .reading | .returned _ => true
  | _ => false

/-- The object's part of the invariant: the callable has one caller at most, which makes the only system call. -/
structure Alive (mappable : Bool) (s : VmoSharing) (object : SharedVmo) : Prop where
  mappable_iff : mappable = true ↔ object.vmo ≠ 0 ∧ object.mapFlags ≠ 0
  mapping : object.mapping = s.mapped.headD 0
  unmapped : s.unmapped = []
  refs : 0 < s.refs
  regions : ∀ address ∈ s.mapped, address ≠ 0 ∧ s.vmar.lookup address = some object.vmoSize
  inside : s.calls.count .mapping + s.calls.count .mapped = if object.mappingOnceFlag = .active then 1 else 0
  mapCalls : s.mapCalls + s.calls.count .mapping = if object.mappingOnceFlag = .fresh then 0 else 1
  touched : object.mappingOnceFlag ≠ .fresh → mappable = true

/-- Every call that is past `call_once` finds the same mapping. -/
structure Shared (mappable : Bool) (s : VmoSharing) : Prop where
  alive : ∀ object, s.object = some object → Alive mappable s object
  dead : s.object = none → s.refs = 0 ∧ s.unmapped = s.mapped
  held : 0 < s.calls.countP MapCall.Unfinished → 0 < s.refs
  once : s.mapped.length ≤ s.mapCalls ∧ s.mapCalls ≤ 1 ∧ (mappable = false → s.mapCalls = 0)
  entering : ∀ c ∈ s.calls, c.Past = false → mappable = true
  settled : mappable = true → ∀ c ∈ s.calls, c.Past = true →
    s.mapCalls = 1 ∧ ∀ object, s.object = some object → object.mappingOnceFlag = .done
  answers : ∀ address, .returned address ∈ s.calls → address = s.mapped.headD 0

private theorem countP_set_add {α : Type} {l : List α} {i : Nat} {a b : α} (p : α → Bool) (h : l[i]? = some a) :
    (l.set i b).countP p + (if p a then 1 else 0) = l.countP p + (if p b then 1 else 0) := by
  obtain ⟨hi, rfl⟩ := List.getElem?_eq_some_iff.mp h
  have hle : (if p l[i] then 1 else 0) ≤ l.countP p := by
    split_ifs with hp
    · exact List.countP_pos_iff.mpr ⟨_, List.getElem_mem hi, hp⟩
    · exact Nat.zero_le _
  rw [List.countP_set hi]
  omega

namespace Shared
variable {mappable : Bool} {s : VmoSharing} {i : Nat}

theorem make {vmo : MxHandle} {mapFlags : UInt32} {getSize : MxStatus} {size : Nat} {vmar : Vmar}
    (hmake : VmoSharing.make vmo mapFlags getSize size vmar = .ok s) : Shared (mapFlags ≠ 0) s := by
  unfold VmoSharing.make at hmake
  split_ifs at hmake with hvmo
  cases hmake
  refine ⟨?_, by simp, by simp, by simp, by simp, by simp, by simp⟩
  rintro object ⟨rfl⟩
  exact ⟨by simp [hvmo], rfl, rfl, Nat.one_pos, by simp, rfl, rfl, by simp⟩

/-- What a step of the `i`-th call does to the counts of calls. -/
theorem counts {l : List MapCall} {c d : MapCall} (hc : l[i]? = some c) :
    (l.set i d).count .mapping + (if c = .mapping then 1 else 0) = l.count .mapping + (if d = .mapping then 1 else 0) ∧
    (l.set i d).count .mapped + (if c = .mapped then 1 else 0) = l.count .mapped + (if d = .mapped then 1 else 0) := by
  constructor
  · simpa [List.count] using countP_set_add (b := d) (· == .mapping) hc
  · simpa [List.count] using countP_set_add (b := d) (· == .mapped) hc

/-- A call that has not returned keeps the object alive. -/
theorem exists_object (h : Shared mappable s) {c : MapCall} (hc : s.calls[i]? = some c) (hu : c.Unfinished = true) :
    ∃ object, s.object = some object ∧ Alive mappable s object := by
  cases ho : s.object with
  | some object => exact ⟨object, rfl, h.alive object ho⟩
  | none =>
    have hpos : 0 < s.calls.countP MapCall.Unfinished := List.countP_pos_iff.mpr ⟨c, List.mem_of_getElem? hc, hu⟩
    have hrefs := h.held hpos
    rw [(h.dead ho).1] at hrefs
    exact absurd hrefs (Nat.lt_irrefl 0)

theorem addRef (h : Shared mappable s) (hr : 0 < s.refs) : Shared mappable { s with refs := s.refs + 1 } := by
  refine ⟨fun object ho => ?_, fun hd => ?_, fun _ => Nat.succ_pos _, h.once, h.entering, h.settled, h.answers⟩
  · obtain ⟨h1, h2, h3, h4, h5, h6, h7, h8⟩ := h.alive object ho
    exact ⟨h1, h2, h3, Nat.succ_pos _, h5, h6, h7, h8⟩
  · rw [(h.dead hd).1] at hr
    exact absurd hr (Nat.not_lt_zero _)

theorem map (h : Shared mappable s) (hr : 0 < s.refs) : ∃ t, s.map = .ok t ∧ Shared mappable t := by
  cases ho : s.object with
  | none =>
    rw [(h.dead ho).1] at hr
    exact absurd hr (Nat.not_lt_zero _)
  | some object =>
    obtain ⟨h1, h2, h3, h4, h5, h6, h7, h8⟩ := h.alive object ho
    have hnew : (if object.vmo ≠ 0 ∧ object.mapFlags ≠ 0 then MapCall.waiting else .reading) =
        if mappable then .waiting else .reading := if_congr h1.symm rfl rfl
    refine ⟨{ s with calls := s.calls ++ [if mappable then .waiting else .reading] },
      by simp only [VmoSharing.map, ho, hnew], ?_⟩
    refine ⟨fun object' ho' => ?_, fun hd => ?_, fun _ => hr, h.once, fun c hc hpast => ?_, fun hm c hc hpast => ?_,
      fun address hc => ?_⟩
    · cases ho.symm.trans ho'
      refine ⟨h1, h2, h3, h4, h5, ?_, ?_, h8⟩
      · cases mappable <;> simpa using h6
      · cases mappable <;> simpa using h7
    · cases ho.symm.trans hd
    · rcases List.mem_append.mp hc with hold | hone
      · exact h.entering c hold hpast
      · cases mappable
        · rw [List.mem_singleton.mp hone] at hpast
          cases hpast
        · rfl
    · rcases List.mem_append.mp hc with hold | hone
      · exact h.settled hm c hold hpast
      · rw [List.mem_singleton.mp hone, hm] at hpast
        cases hpast
    · rcases List.mem_append.mp hc with hold | hone
      · exact h.answers address hold
      · cases mappable <;> cases List.mem_singleton.mp hone

/-- The first caller finds the flag fresh. -/
theorem enterOnce (h : Shared mappable s) (hc : s.calls[i]? = some .waiting)
    (hf : s.object.map SharedVmo.mappingOnceFlag = some .fresh) : ∃ t, s.enterOnce i = .ok t ∧ Shared mappable t := by
  obtain ⟨object, ho, h1, h2, h3, h4, h5, h6, h7, h8⟩ := h.exists_object hc rfl
  obtain ⟨hmap, hmapped⟩ := counts (d := .mapping) hc
  have hfresh : object.mappingOnceFlag = .fresh := by simpa [ho] using hf
  have hmappable := h.entering _ (List.mem_of_getElem? hc) rfl
  rw [hfresh] at h6 h7
  refine ⟨_, by rw [VmoSharing.enterOnce, ho], ?_⟩
  refine ⟨fun object' ho' => ?_, by simp, fun _ => h4, h.once, fun c _ _ => hmappable, fun hm c hmem hpast => ?_,
    fun address hmem => ?_⟩
  · cases ho'
    exact ⟨h1, h2, h3, h4, h5, by grind, by grind, fun _ => hmappable⟩
  · rcases List.mem_or_eq_of_mem_set hmem with hold | rfl
    · have := (h.settled hm c hold hpast).2 object ho
      simp [hfresh] at this
    · cases hpast
  · rcases List.mem_or_eq_of_mem_set hmem with hold | heq
    · exact h.answers address hold
    · cases heq

/-- A later one passes when the callable is done. -/
theorem passOnce (h : Shared mappable s) (hc : s.calls[i]? = some .waiting)
    (hf : s.object.map SharedVmo.mappingOnceFlag = some .done) : Shared mappable (s.passOnce i) := by
  obtain ⟨object, ho, h1, h2, h3, h4, h5, h6, h7, h8⟩ := h.exists_object hc rfl
  obtain ⟨hmap, hmapped⟩ := counts (d := .reading) hc
  have hdone : object.mappingOnceFlag = .done := by simpa [ho] using hf
  have hmappable := h.entering _ (List.mem_of_getElem? hc) rfl
  refine ⟨fun object' ho' => ?_, fun hd => ?_, fun _ => h4, h.once, fun c _ _ => hmappable, fun hm c hmem hpast => ?_,
    fun address hmem => ?_⟩
  · cases ho.symm.trans ho'
    exact ⟨h1, h2, h3, h4, h5, by grind [VmoSharing.passOnce], by grind [VmoSharing.passOnce], h8⟩
  · cases ho.symm.trans hd
  · rcases List.mem_or_eq_of_mem_set hmem with hold | rfl
    · exact h.settled hm c hold hpast
    · refine ⟨by grind [VmoSharing.passOnce], fun object' ho' => ?_⟩
      · cases ho.symm.trans ho'
        exact hdone
  · rcases List.mem_or_eq_of_mem_set hmem with hold | heq
    · exact h.answers address hold
    · cases heq

/-- The system call of the callable: the only one there is, and nobody has read the mapping yet. -/
theorem vmarMap (h : Shared mappable s) {region : Option Address} (hc : s.calls[i]? = some .mapping)
    (hregion : ∀ address, region = some address → address ≠ 0 ∧ s.vmar.lookup address = none) :
    ∃ t, s.vmarMap i region = .ok t ∧ Shared mappable t := by
  obtain ⟨object, ho, h1, h2, h3, h4, h5, h6, h7, h8⟩ := h.exists_object hc rfl
  obtain ⟨hmap, hmapped⟩ := counts (d := .mapped) hc
  have hin : 0 < s.calls.count .mapping := List.count_pos_iff.mpr (List.mem_of_getElem? hc)
  have hmappable := h.entering _ (List.mem_of_getElem? hc) rfl
  have hnone : s.mapCalls = 0 := by grind
  have hnothing : s.mapped = [] := List.length_eq_zero_iff.mp (Nat.le_zero.mp (hnone ▸ h.once.1))
  have hunread : ∀ c ∈ s.calls, c.Past = false := fun c hmem => by
    by_contra hpast
    have := (h.settled hmappable c hmem (by simpa using hpast)).1
    omega
  have hmem (c : MapCall) (hmem : c ∈ s.calls.set i .mapped) : c.Past = false := by
    rcases List.mem_or_eq_of_mem_set hmem with hold | rfl
    · exact hunread c hold
    · rfl
  have hanswers (address : Address) (hmem' : .returned address ∈ s.calls.set i .mapped) (p : Address) : address = p := by
    cases hmem _ hmem'
  cases region with
  | none =>
    refine ⟨{ s with calls := s.calls.set i .mapped, mapCalls := s.mapCalls + 1 }, by simp [VmoSharing.vmarMap, ho], ?_⟩
    refine ⟨fun object' ho' => ?_, fun hd => ?_, fun _ => h4, ?_, fun _ _ _ => hmappable,
      fun _ c hc' hpast => ?_, fun address hc' => hanswers address hc' _⟩
    · cases ho.symm.trans ho'
      exact ⟨h1, h2, h3, h4, h5, by grind, by grind, h8⟩
    · cases ho.symm.trans hd
    · exact ⟨by simp [hnothing], by simp [hnone], by simp [hmappable]⟩
    · rw [hmem c hc'] at hpast
      cases hpast
  | some address =>
    obtain ⟨hpos, hfree⟩ := hregion address rfl
    refine ⟨{ s with
        object := some { object with mapping := address }
        vmar := s.vmar.insert address object.vmoSize
        calls := s.calls.set i .mapped
        mapCalls := s.mapCalls + 1
        mapped := address :: s.mapped }, by simp [VmoSharing.vmarMap, ho], ?_⟩
    refine ⟨fun object' ho' => ?_, by simp, fun _ => h4, ?_, fun _ _ _ => hmappable,
      fun _ c hc' hpast => ?_, fun address hc' => hanswers address hc' _⟩
    · cases ho'
      refine ⟨h1, by simp, h3, h4, ?_, by grind, by grind, h8⟩
      simp [hnothing, hpos]
    · exact ⟨by simp [hnothing], by simp [hnone], by simp [hmappable]⟩
    · rw [hmem c hc'] at hpast
      cases hpast

theorem leaveOnce (h : Shared mappable s) (hc : s.calls[i]? = some .mapped) :
    ∃ t, s.leaveOnce i = .ok t ∧ Shared mappable t := by
  obtain ⟨object, ho, h1, h2, h3, h4, h5, h6, h7, h8⟩ := h.exists_object hc rfl
  obtain ⟨hmap, hmapped⟩ := counts (d := .reading) hc
  have hin : 0 < s.calls.count .mapped := List.count_pos_iff.mpr (List.mem_of_getElem? hc)
  have hmappable := h.entering _ (List.mem_of_getElem? hc) rfl
  refine ⟨_, by rw [VmoSharing.leaveOnce, ho], ?_⟩
  refine ⟨fun object' ho' => ?_, by simp, fun _ => h4, h.once, fun _ _ _ => hmappable,
    fun hm c hmem hpast => ⟨by grind, fun object' ho' => ?_⟩, fun address hmem => ?_⟩
  · cases ho'
    exact ⟨h1, h2, h3, h4, h5, by grind, by grind, fun _ => hmappable⟩
  · cases ho'
    rfl
  · rcases List.mem_or_eq_of_mem_set hmem with hold | heq
    · exact h.answers address hold
    · cases heq

theorem mapReturns (h : Shared mappable s) (hc : s.calls[i]? = some .reading) :
    ∃ t, s.mapReturns i = .ok t ∧ Shared mappable t := by
  obtain ⟨object, ho, h1, h2, h3, h4, h5, h6, h7, h8⟩ := h.exists_object hc rfl
  obtain ⟨hmap, hmapped⟩ := counts (d := .returned object.mapping) hc
  refine ⟨{ s with calls := s.calls.set i (.returned object.mapping) }, by simp [VmoSharing.mapReturns, ho], ?_⟩
  refine ⟨fun object' ho' => ?_, fun hd => ?_, fun _ => h4, h.once, fun c hmem hpast => ?_,
    fun hm c hmem hpast => ?_, fun address hmem => ?_⟩
  · cases ho.symm.trans ho'
    exact ⟨h1, h2, h3, h4, h5, by grind, by grind, h8⟩
  · cases ho.symm.trans hd
  · rcases List.mem_or_eq_of_mem_set hmem with hold | rfl
    · exact h.entering c hold hpast
    · cases hpast
  · rcases List.mem_or_eq_of_mem_set hmem with hold | rfl
    · exact h.settled hm c hold hpast
    · exact h.settled hm _ (List.mem_of_getElem? hc) rfl
  · rcases List.mem_or_eq_of_mem_set hmem with hold | heq
    · exact h.answers address hold
    · cases heq
      exact h2

/-- The last reference takes the mapping with it. -/
theorem release (h : Shared mappable s) (hr : 0 < s.refs) (hcalls : s.refs = 1 → s.calls.countP MapCall.Unfinished = 0)
    {status : MxStatus} (hstatus : s.UnmapsWhole status) : ∃ t, s.release status = .ok t ∧ Shared mappable t := by
  cases ho : s.object with
  | none =>
    rw [(h.dead ho).1] at hr
    exact absurd hr (Nat.not_lt_zero _)
  | some object =>
    obtain ⟨h1, h2, h3, h4, h5, h6, h7, h8⟩ := h.alive object ho
    by_cases hlast : s.refs - 1 = 0
    · have hunfinished : 0 < s.calls.countP MapCall.Unfinished → 0 < s.refs - 1 := by
        have := hcalls (by omega)
        omega
      have hend (vmar : Vmar) (unmapped : List Address) (hall : unmapped = s.mapped) :
          Shared mappable { s with refs := s.refs - 1, vmar := vmar, unmapped := unmapped, object := none } :=
        ⟨by simp, fun _ => ⟨hlast, hall⟩, hunfinished, h.once, h.entering,
          fun hm c hc hpast => ⟨(h.settled hm c hc hpast).1, by simp⟩, h.answers⟩
      by_cases hz : object.mapping = 0
      · have hnothing : s.mapped = [] := by
          cases hm : s.mapped with
          | nil => rfl
          | cons address rest =>
            rw [hm, List.headD_cons] at h2
            exact absurd (h2.symm.trans hz) (h5 address (by simp [hm])).1
        refine ⟨_, ?_, hend s.vmar s.unmapped (h3.trans hnothing.symm)⟩
        simp [VmoSharing.release, hlast, VmoSharing.destroy, ho, hz]
      · have hone : s.mapped = [object.mapping] := by
          have hlen := h.once.1.trans h.once.2.1
          match hm : s.mapped with
          | [] => simp [hm] at h2; exact absurd h2 hz
          | [address] => simp [hm] at h2; rw [h2]
          | _ :: _ :: _ => simp [hm] at hlen
        have hregion := (h5 object.mapping (by simp [hone])).2
        obtain rfl := hstatus object ho hregion
        refine ⟨_, ?_, hend (s.vmar.erase object.mapping) (object.mapping :: s.unmapped) (by rw [h3, hone])⟩
        simp [VmoSharing.release, hlast, VmoSharing.destroy, ho, hz, VmoSharing.unmap, hregion]
    · refine ⟨{ s with refs := s.refs - 1 }, by simp [VmoSharing.release, hlast], fun object' ho' => ?_, fun hd => ?_,
        fun _ => Nat.pos_of_ne_zero hlast, h.once, h.entering, h.settled, h.answers⟩
      · cases ho.symm.trans ho'
        exact ⟨h1, h2, h3, Nat.pos_of_ne_zero hlast, h5, h6, h7, h8⟩
      · cases ho.symm.trans hd

/-- What others do with regions of their own. -/
theorem others (h : Shared mappable s) {vmar : Vmar}
    (hkeep : ∀ object, s.object = some object → ∀ address ∈ s.mapped, vmar.lookup address = s.vmar.lookup address) :
    Shared mappable { s with vmar := vmar } := by
  refine ⟨fun object ho => ?_, h.dead, h.held, h.once, h.entering, h.settled, h.answers⟩
  obtain ⟨h1, h2, h3, h4, h5, h6, h7, h8⟩ := h.alive object ho
  refine ⟨h1, h2, h3, h4, fun address hmem => ⟨(h5 address hmem).1, ?_⟩, h6, h7, h8⟩
  rw [hkeep object ho address hmem]
  exact (h5 address hmem).2

theorem step (h : Shared mappable s) (a : SharingAct) (he : sharingMachine.Enabled s a) :
    ∃ t, sharingMachine.step s a = .ok t ∧ Shared mappable t := by
  cases a with
  | addRef => exact ⟨_, rfl, h.addRef he⟩
  | release status => exact h.release he.1 he.2.1 he.2.2
  | map => exact h.map he
  | enterOnce i => exact h.enterOnce he.1 he.2
  | passOnce i => exact ⟨_, rfl, h.passOnce he.1 he.2⟩
  | vmarMap i region => exact h.vmarMap he.1 he.2
  | leaveOnce i => exact h.leaveOnce he
  | mapReturns i => exact h.mapReturns he
  | mapOther address size =>
    refine ⟨_, rfl, h.others fun object ho a hmem => ?_⟩
    have hregion := ((h.alive object ho).regions a hmem).2
    rw [lookup_insert_eq, if_neg]
    rintro rfl
    simp [he.2] at hregion
  | unmapOther address =>
    refine ⟨_, rfl, h.others fun object ho a hmem => ?_⟩
    have halive := h.alive object ho
    have hone : a = object.mapping := by
      have hlen := h.once.1.trans h.once.2.1
      rw [halive.mapping]
      match hm : s.mapped with
      | [] => simp [hm] at hmem
      | [_] => simpa [hm] using hmem
      | _ :: _ :: _ => simp [hm] at hlen
    rw [lookup_erase_eq, if_neg]
    rintro rfl
    exact he (by rw [ho, hone]; rfl)

end Shared

theorem shared_of_run {vmo : MxHandle} {mapFlags : UInt32} {getSize : MxStatus} {size : Nat} {vmar : Vmar}
    {start : VmoSharing} (hmake : VmoSharing.make vmo mapFlags getSize size vmar = .ok start) {acts : List SharingAct}
    {result : Except Fault VmoSharing} (hrun : sharingMachine.Run start acts result) :
    ∃ s, result = .ok s ∧ Shared (mapFlags ≠ 0) s :=
  hrun.safe (fun _ a h he => h.step a he) (Shared.make hmake)

/-- However the threads interleave, the VMO is mapped by one system call at most, which is not repeated even if it
fails, and all calls of `Map` return what it gave. The region stays as long as the object does, and goes with it. -/
theorem shared_vmo_maps_once {vmo : MxHandle} {mapFlags : UInt32} {getSize : MxStatus} {size : Nat} {vmar : Vmar}
    {start : VmoSharing} (hmake : VmoSharing.make vmo mapFlags getSize size vmar = .ok start) {acts : List SharingAct}
    {result : Except Fault VmoSharing} (hrun : sharingMachine.Run start acts result) :
    ∃ s, result = .ok s ∧ s.mapCalls ≤ 1 ∧ (mapFlags = 0 → s.mapCalls = 0) ∧
      ∃ address, (s.mapped = [] ∧ address = 0 ∨ s.mapped = [address]) ∧
        (∀ p, .returned p ∈ s.calls → p = address) ∧
        (∀ object, s.object = some object → object.mapping = address ∧ s.unmapped = [] ∧
          (address ≠ 0 → s.vmar.lookup address = some object.vmoSize)) ∧
        (s.object = none → s.unmapped = s.mapped) := by
  obtain ⟨s, hs, h⟩ := shared_of_run hmake hrun
  have hone := h.once.1.trans h.once.2.1
  refine ⟨s, hs, h.once.2.1, fun hflags => h.once.2.2 (by simp [hflags]), s.mapped.headD 0, ?_, h.answers,
    fun object ho => ?_, fun hd => (h.dead hd).2⟩
  · match hm : s.mapped with
    | [] => exact .inl ⟨rfl, rfl⟩
    | [address] => exact .inr rfl
    | _ :: _ :: _ => simp [hm] at hone
  · have halive := h.alive object ho
    refine ⟨halive.mapping, halive.unmapped, fun hne => ?_⟩
    cases hm : s.mapped with
    | nil => simp [hm] at hne
    | cons address rest => exact (halive.regions address (by simp [hm])).2

/-- Two threads call `Map` through one reference, the second one while the first is in the system call. Another reference
comes and goes meanwhile. -/
theorem shared_vmo_maps_once_two_threads :
    ∃ start s, VmoSharing.make 5 1 .ok 4096 ∅ = .ok start ∧
      sharingMachine.Run start [.map, .enterOnce 0, .addRef, .map, .vmarMap 0 (some 65536), .release .ok, .leaveOnce 0,
        .passOnce 1, .mapReturns 1, .mapReturns 0, .release .ok] (.ok s) ∧
      s.calls = [.returned 65536, .returned 65536] ∧ s.mapCalls ≤ 1 ∧ s.unmapped = [65536] := by
  have hregion (address : Address) (h : some 65536 = some address) :
      address ≠ 0 ∧ (∅ : Vmar).lookup address = none := by
    cases h
    exact ⟨by decide, Finmap.lookup_empty _⟩
  have hmake : VmoSharing.make 5 1 .ok 4096 ∅ =
      .ok { object := some { vmo := 5, mapFlags := 1, vmoSize := 4096 }, vmar := ∅ } := rfl
  have hrun : sharingMachine.Run { object := some { vmo := 5, mapFlags := 1, vmoSize := 4096 }, vmar := ∅ }
      [.map, .enterOnce 0, .addRef, .map, .vmarMap 0 (some 65536), .release .ok, .leaveOnce 0, .passOnce 1,
        .mapReturns 1, .mapReturns 0, .release .ok] (.ok _) :=
    .step Nat.one_pos rfl (.step ⟨rfl, rfl⟩ rfl (.step Nat.one_pos rfl (.step Nat.two_pos rfl
      (.step ⟨rfl, hregion⟩ rfl (.step ⟨Nat.two_pos, fun h => absurd h (by decide), fun _ _ _ => rfl⟩ rfl
        (.step rfl rfl (.step ⟨rfl, rfl⟩ rfl (.step rfl rfl (.step rfl rfl
          (.step ⟨Nat.one_pos, fun _ => rfl, fun _ _ _ => rfl⟩ rfl (.nil _)))))))))))
  obtain ⟨s, hs, hcalls, -⟩ := shared_vmo_maps_once hmake hrun
  cases hs
  exact ⟨_, _, hmake, hrun, rfl, hcalls, rfl⟩

/-- The steps that a call of `Map` takes. -/
def SharingAct.OfCall : SharingAct → Prop
  | .enterOnce _ | .passOnce _ | .vmarMap _ _ | .leaveOnce _ | .mapReturns _ => True
  | _ => False

/-- How many steps a call has left at most. -/
def MapCall.toGo : MapCall → Nat
  | .waiting => 4
  | .mapping => 3
  | .mapped => 2
  | .reading => 1
  | .returned _ => 0

private theorem sum_set_add {α : Type} (f : α → Nat) {l : List α} {i : Nat} {a : α} (b : α) (h : l[i]? = some a) :
    ((l.set i b).map f).sum + f a = (l.map f).sum + f b := by
  induction l generalizing i with
  | nil => simp at h
  | cons c l ih =>
    cases i with
    | zero =>
      cases h
      simp only [List.set_cons_zero, List.map_cons, List.sum_cons]
      omega
    | succ i =>
      have := ih (i := i) h
      simp only [List.set_cons_succ, List.map_cons, List.sum_cons]
      omega

private theorem sum_toGo_le (calls : List MapCall) :
    (calls.map MapCall.toGo).sum ≤ 4 * calls.countP MapCall.Unfinished := by
  induction calls with
  | nil => simp
  | cons c calls ih =>
    rw [List.map_cons, List.sum_cons, List.countP_cons]
    cases c <;> simp [MapCall.toGo, MapCall.Unfinished] <;> omega

namespace Shared
variable {mappable : Bool} {s t : VmoSharing}

/-- A step of a call brings it nearer to its return. -/
theorem toGo_lt {a : SharingAct} (ha : a.OfCall) (he : sharingMachine.Enabled s a)
    (hstep : sharingMachine.step s a = .ok t) : (t.calls.map MapCall.toGo).sum < (s.calls.map MapCall.toGo).sum := by
  have hset {i : Nat} {c d : MapCall} (hc : s.calls[i]? = some c) (hlt : d.toGo < c.toGo)
      (ht : t.calls = s.calls.set i d) : (t.calls.map MapCall.toGo).sum < (s.calls.map MapCall.toGo).sum := by
    have hsum := sum_set_add MapCall.toGo d hc
    rw [ht]
    omega
  cases a with
  | enterOnce i =>
    refine hset he.1 (d := .mapping) (by decide) ?_
    simp only [sharingMachine, VmoSharing.enterOnce] at hstep
    split at hstep
    · cases hstep
    · cases hstep
      rfl
  | passOnce i =>
    cases hstep
    exact hset he.1 (d := .reading) (by decide) rfl
  | vmarMap i region =>
    refine hset he.1 (d := .mapped) (by decide) ?_
    simp only [sharingMachine, VmoSharing.vmarMap] at hstep
    split at hstep
    · cases hstep
    · cases hstep
      rfl
    · cases hstep
      rfl
  | leaveOnce i =>
    refine hset he (d := .reading) (by decide) ?_
    simp only [sharingMachine, VmoSharing.leaveOnce] at hstep
    split at hstep
    · cases hstep
    · cases hstep
      rfl
  | mapReturns i =>
    simp only [sharingMachine, VmoSharing.mapReturns] at hstep
    split at hstep
    · cases hstep
    · rename_i object _
      cases hstep
      exact hset he (d := .returned object.mapping) Nat.one_pos rfl
  | _ => exact ha.elim

/-- While a call has not returned, some call can go on. -/
theorem unfinished (h : Shared mappable s) (hstuck : ∀ a, a.OfCall → ¬ sharingMachine.Enabled s a) :
    ∀ c ∈ s.calls, ∃ address, c = .returned address := by
  have hmapping : .mapping ∉ s.calls := fun hmem => by
    obtain ⟨i, hi⟩ := List.getElem?_of_mem hmem
    exact hstuck (.vmarMap i none) trivial ⟨hi, fun _ h => nomatch h⟩
  have hmapped : .mapped ∉ s.calls := fun hmem => by
    obtain ⟨i, hi⟩ := List.getElem?_of_mem hmem
    exact hstuck (.leaveOnce i) trivial hi
  intro c hmem
  obtain ⟨i, hi⟩ := List.getElem?_of_mem hmem
  cases c with
  | returned address => exact ⟨address, rfl⟩
  | reading => exact absurd hi (hstuck (.mapReturns i) trivial)
  | mapping => exact absurd hmem hmapping
  | mapped => exact absurd hmem hmapped
  | waiting =>
    -- Somebody is in the callable, or nobody has to be waited for.
    obtain ⟨object, ho, halive⟩ := h.exists_object hi rfl
    have hinside := halive.inside
    rw [List.count_eq_zero.mpr hmapping, List.count_eq_zero.mpr hmapped] at hinside
    cases hflag : object.mappingOnceFlag with
    | fresh => exact absurd ⟨hi, by rw [ho, Option.map_some, hflag]⟩ (hstuck (.enterOnce i) trivial)
    | active => simp [hflag] at hinside
    | done => exact absurd ⟨hi, by rw [ho, Option.map_some, hflag]⟩ (hstuck (.passOnce i) trivial)

end Shared

/-- The calls of `Map` need nobody else: at most four steps each, and where none can go on all have returned. -/
theorem map_calls_return {vmo : MxHandle} {mapFlags : UInt32} {getSize : MxStatus} {size : Nat} {vmar : Vmar}
    {start : VmoSharing} (hmake : VmoSharing.make vmo mapFlags getSize size vmar = .ok start)
    {acts calls : List SharingAct} {s : VmoSharing} {result : Except Fault VmoSharing}
    (hrun : sharingMachine.Run start acts (.ok s))
    (hcalls : (sharingMachine.restrict fun _ a => a.OfCall).Run s calls result) :
    ∃ t, result = .ok t ∧ calls.length ≤ 4 * s.calls.countP MapCall.Unfinished ∧
      ((∀ a, a.OfCall → ¬ sharingMachine.Enabled t a) → ∀ c ∈ t.calls, ∃ address, c = .returned address) := by
  obtain ⟨_, hs, h⟩ := shared_of_run hmake hrun
  cases hs
  have hstep (u : VmoSharing) (a : SharingAct) (hu : Shared (mapFlags ≠ 0) u)
      (he : (sharingMachine.restrict fun _ a => a.OfCall).Enabled u a) :
      ∃ t, sharingMachine.step u a = .ok t ∧ Shared (mapFlags ≠ 0) t := hu.step a he.1
  obtain ⟨t, rfl, ht⟩ := hcalls.safe hstep h
  refine ⟨t, rfl, ?_, ht.unfinished⟩
  have hlen := hcalls.length_le (I := Shared (mapFlags ≠ 0)) (P := fun _ => True)
    (μ := fun u => (u.calls.map MapCall.toGo).sum) (fun u a u' hu _ he hu' => by
      obtain ⟨v, hv, hI⟩ := hstep u a hu he
      cases hv.symm.trans hu'
      exact ⟨hI, Shared.toGo_lt he.2 he.1 hu'⟩) h (fun _ _ => trivial)
  exact (Nat.le_add_right _ _).trans (hlen.trans (sum_toGo_le _))

/-- One call is in the system call, and another one waits for it. -/
theorem map_calls_return_waiting :
    ∃ s t, sharingMachine.Run { object := some { vmo := 5, mapFlags := 1, vmoSize := 4096 }, vmar := ∅ }
        [.map, .map, .enterOnce 1] (.ok s) ∧
      (sharingMachine.restrict fun _ a => a.OfCall).Run s [.vmarMap 1 none, .leaveOnce 1, .passOnce 0, .mapReturns 0,
        .mapReturns 1] (.ok t) ∧
      t.calls = [.returned 0, .returned 0] ∧ 5 ≤ 4 * s.calls.countP MapCall.Unfinished := by
  have hrun : sharingMachine.Run { object := some { vmo := 5, mapFlags := 1, vmoSize := 4096 }, vmar := ∅ }
      [.map, .map, .enterOnce 1] (.ok {
        object := some { vmo := 5, mapFlags := 1, vmoSize := 4096, mappingOnceFlag := .active }
        vmar := ∅, calls := [.waiting, .mapping] }) :=
    .step Nat.one_pos rfl (.step Nat.one_pos rfl (.step ⟨rfl, rfl⟩ rfl (.nil _)))
  have hcalls : (sharingMachine.restrict fun _ a => a.OfCall).Run {
      object := some { vmo := 5, mapFlags := 1, vmoSize := 4096, mappingOnceFlag := .active }
      vmar := ∅, calls := [.waiting, .mapping] } [.vmarMap 1 none, .leaveOnce 1, .passOnce 0, .mapReturns 0,
        .mapReturns 1] (.ok _) :=
    .step ⟨⟨rfl, fun _ h => nomatch h⟩, trivial⟩ rfl (.step ⟨rfl, trivial⟩ rfl (.step ⟨⟨rfl, rfl⟩, trivial⟩ rfl
      (.step ⟨rfl, trivial⟩ rfl (.step ⟨rfl, trivial⟩ rfl (.nil _)))))
  have hmake : VmoSharing.make 5 1 .ok 4096 ∅ =
      .ok { object := some { vmo := 5, mapFlags := 1, vmoSize := 4096 }, vmar := ∅ } := rfl
  obtain ⟨t, ht, hlen, -⟩ := map_calls_return hmake hrun hcalls
  cases ht
  exact ⟨_, _, hrun, hcalls, rfl, hlen⟩

end Mtl.Vmo
