import SwitchLdnZt.Library.Once

namespace SwitchLdnZt.Sysmodule
open Library

/-- A `lmem::HeapHandle`, by its address; 0 is what it is constant-initialised to. -/
abbrev HeapHandle := UInt64

inductive HeapOp
  | allocateFromExpHeap (size : Nat)
  | freeToExpHeap (p : UInt64)
deriving DecidableEq

/-- `sysb::Allocate` and `sysb::Deallocate`. -/
inductive HeapCall
  | allocate (size : Nat)
  | deallocate (p : UInt64) (size : Nat)

/-- What a call does once it has the handle; the size of a `Deallocate` is unused. -/
def HeapCall.op : HeapCall → HeapOp
  | .allocate size => .allocateFromExpHeap size
  | .deallocate p _ => .freeToExpHeap p

def operatorNew (size : Nat) : HeapCall := .allocate size
def operatorDelete (p : UInt64) : HeapCall := .deallocate p 0

/-- Where a thread is in its call: in `GetHeapHandle`, or behind it. -/
inductive HeapAt
  | idle
  | getting (op : HeapOp)
  | got (op : HeapOp) (handle : HeapHandle)
deriving DecidableEq

/-- `g_heap_initialized`, `g_heap_handle` and `g_heap_init_mutex`, with what each thread
is at, and all that was done on a heap so far. -/
structure Heap (T : Type) where
  init : Once T HeapHandle
  place : T → HeapAt
  done : List (T × HeapHandle × HeapOp)

inductive HeapEvent (T : Type)
  | call (t : T) (c : HeapCall)
  | tick (t : T)
  | createExpHeap (t : T) (handle : HeapHandle)
  | getHeapHandle (t : T)
  | perform (t : T)

variable {T : Type}

def Heap.boot : Heap T := ⟨.start 0, fun _ => .idle, []⟩

variable [DecidableEq T]

def Heap.put (s : Heap T) (t : T) (a : HeapAt) : Heap T :=
  { s with place := Function.update s.place t a }

def Heap.step (s : Heap T) : HeapEvent T → Option (Heap T)
  | .call t c =>
    match s.place t with
    | .idle => (s.init.step (.enter t)).map fun o => { s.put t (.getting c.op) with init := o }
    | _ => none
  | .tick t => (s.init.step (.tick t)).map fun o => { s with init := o }
  | .createExpHeap t handle => (s.init.step (.made t handle)).map fun o => { s with init := o }
  | .getHeapHandle t =>
    match s.place t with
    | .getting op =>
      (s.init.step (.leave t)).map fun o => { s.put t (.got op s.init.value) with init := o }
    | _ => none
  | .perform t =>
    match s.place t with
    | .got op handle => some { s.put t .idle with done := s.done ++ [(t, handle, op)] }
    | _ => none

end SwitchLdnZt.Sysmodule
