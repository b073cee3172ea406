import Kith.Base
import Kith.Lib.OneShot

/-!
# The io_uring backend

`reactor_uring.c` watches a descriptor with one-shot polls. Each poll carries a generation of
its descriptor in the 64 bits that come back with its completion. What `io_uring_submit` does
is a script: how many entries the kernel takes from the queue, and what the call returns.

The model numbers the registrations and marks each poll with the one it was armed for; the
code has only the generation.
-/

namespace Kith.Reactor

open OneShot List

section Identity

def uringDataWake : UInt64 := 0xFFFFFFFFFFFFFFFF
def uringDataCancel : UInt64 := 0xFFFFFFFFFFFFFFFE
def uringGenMax : UInt32 := 0xFFFFFFFE

def uringEncodeGen (gen : UInt32) (fd : Int32) : UInt64 :=
  (gen.toUInt64 <<< 32) ||| fd.toUInt32.toUInt64

variable (data : UInt64)

def uringDecodeFd : Int32 := (data &&& 0xFFFFFFFF).toUInt32.toInt32

def uringDecodeGen : UInt32 := (data >>> 32).toUInt32

variable (gen : UInt32) (fd : Int32)

theorem toNat_uringEncodeGen :
    (uringEncodeGen gen fd).toNat = gen.toNat * 2 ^ 32 + fd.toUInt32.toNat := by
  have low := fd.toUInt32.toNat_lt
  have high := gen.toNat_lt
  have shifted : (gen.toUInt64 <<< 32).toNat = gen.toNat <<< 32 := by
    rw [UInt64.toNat_shiftLeft, UInt32.toNat_toUInt64, show (32 : UInt64).toNat % 64 = 32 from rfl,
      Nat.mod_eq_of_lt]
    omega
  rw [uringEncodeGen, UInt64.toNat_or, shifted, UInt32.toNat_toUInt64,
    ← Nat.shiftLeft_add_eq_or_of_lt low, Nat.shiftLeft_eq]

@[simp] theorem uringDecodeFd_encode : uringDecodeFd (uringEncodeGen gen fd) = fd := by
  have low : (uringEncodeGen gen fd &&& 0xFFFFFFFF).toUInt32 = fd.toUInt32 := by
    apply UInt32.toNat_inj.mp
    have small := fd.toUInt32.toNat_lt
    rw [UInt64.toNat_toUInt32, UInt64.toNat_and, toNat_uringEncodeGen,
      show (0xFFFFFFFF : UInt64).toNat = 2 ^ 32 - 1 from rfl, Nat.and_two_pow_sub_one_eq_mod]
    omega
  rw [uringDecodeFd, low, Int32.toInt32_toUInt32]

@[simp] theorem uringDecodeGen_encode : uringDecodeGen (uringEncodeGen gen fd) = gen := by
  apply UInt32.toNat_inj.mp
  have low := fd.toUInt32.toNat_lt
  have high := gen.toNat_lt
  rw [uringDecodeGen, UInt64.toNat_toUInt32, UInt64.toNat_shiftRight, toNat_uringEncodeGen,
    show (32 : UInt64).toNat % 64 = 32 from rfl, Nat.shiftRight_eq_div_pow]
  omega

theorem uringEncodeGen_decode :
    uringEncodeGen (uringDecodeGen data) (uringDecodeFd data) = data := by
  apply UInt64.toNat_inj.mp
  have size := data.toNat_lt
  have high : (uringDecodeGen data).toNat = data.toNat / 2 ^ 32 := by
    rw [uringDecodeGen, UInt64.toNat_toUInt32, UInt64.toNat_shiftRight,
      show (32 : UInt64).toNat % 64 = 32 from rfl, Nat.shiftRight_eq_div_pow, Nat.mod_eq_of_lt]
    omega
  have low : (uringDecodeFd data).toUInt32.toNat = data.toNat % 2 ^ 32 := by
    rw [uringDecodeFd, UInt32.toUInt32_toInt32, UInt64.toNat_toUInt32, UInt64.toNat_and,
      show (0xFFFFFFFF : UInt64).toNat = 2 ^ 32 - 1 from rfl, Nat.and_two_pow_sub_one_eq_mod,
      Nat.mod_mod]
  rw [toNat_uringEncodeGen, high, low, Nat.div_add_mod']

variable {gen fd}

theorem uringEncodeGen_lt (bounded : gen ≤ uringGenMax) (fd : Int32) :
    (uringEncodeGen gen fd).toNat < uringDataCancel.toNat := by
  have low := fd.toUInt32.toNat_lt
  have high : gen.toNat ≤ 2 ^ 32 - 2 := UInt32.le_iff_toNat_le.mp bounded
  rw [toNat_uringEncodeGen, show uringDataCancel.toNat = 2 ^ 64 - 2 from rfl]
  omega

/-- Below the last generation no identity is one of the two marks. -/
theorem uringEncodeGen_ne (bounded : gen ≤ uringGenMax) :
    uringEncodeGen gen fd ≠ uringDataWake ∧ uringEncodeGen gen fd ≠ uringDataCancel := by
  have below := uringEncodeGen_lt bounded fd
  constructor
  · intro same
    rw [same] at below
    exact absurd below (by decide)
  · intro same
    rw [same] at below
    exact absurd below (lt_irrefl _)

end Identity

section Masks

def toPollMask (events : UInt32) : UInt32 :=
  (if events &&& 1 ≠ 0 then 0x1 else 0) ||| (if events &&& 2 ≠ 0 then 0x4 else 0)

/-- `POLLIN`, `POLLOUT`, `POLLHUP` or `POLLRDHUP`, `POLLERR`. -/
def fromPollMask (revents : UInt16) : UInt32 :=
  (if revents &&& 0x1 ≠ 0 then 1 else 0) ||| (if revents &&& 0x4 ≠ 0 then 2 else 0) |||
    (if revents &&& 0x2010 ≠ 0 then 8 else 0) ||| (if revents &&& 0x8 ≠ 0 then 16 else 0)

/-- The events of a completion; a failed or cancelled poll has none. -/
def cqeEvents (res : Int32) : UInt32 :=
  fromPollMask (if 0 ≤ res then res.toUInt32.toUInt16 else 0)

end Masks

section Model

structure UringFdEntry where
  fd : Int32
  events : UInt32
  gen : UInt32
  lastGen : UInt32
  /-- The number of the registration, which the code does not have. -/
  registration : Nat
  deriving DecidableEq

structure Poll where
  fd : Int32
  mask : UInt32
  data : UInt64
  registration : Nat
  deriving DecidableEq

inductive Sqe where
  | poll (p : Poll)
  | cancel (identity : UInt64)
  deriving DecidableEq

inductive Cqe where
  | poll (p : Poll) (res : Int32)
  | cancel
  deriving DecidableEq

def Cqe.data : Cqe → UInt64
  | .poll p _ => p.data
  | .cancel => uringDataCancel

/-- The result of a cancellation is not looked at. -/
def Cqe.res : Cqe → Int32
  | .poll _ res => res
  | .cancel => 0

def Sqe.asPoll : Sqe → Option Poll
  | .poll p => some p
  | .cancel _ => none

def Cqe.asPoll : Cqe → Option Poll
  | .poll p _ => some p
  | .cancel => none

/-- The completion of a cancellation, once the kernel has taken it. -/
def Sqe.asCancelled : Sqe → Option Cqe
  | .poll _ => none
  | .cancel _ => some .cancel

/-- One answer of `io_uring_submit`. -/
structure Submission where
  taken : Nat
  rc : Int

/-- `uring_backend` with its ring: the queue of prepared entries, the polls the kernel has,
and the completions that wait. -/
structure UringBackend where
  fdEntries : Int32 → UringFdEntry
  fdCapacity : UInt32
  wakeFd : Int32
  wakeFdAdded : Bool
  sqEntries : Nat
  sq : List Sqe
  kernel : List Poll
  cq : List Cqe
  submissions : Nat → Submission
  submitted : Nat
  registrations : Nat

variable (b : UringBackend)

/-- `io_uring_get_sqe`, and what is then written into the entry. -/
def UringBackend.queue (sqe : Sqe) : Option UringBackend :=
  if b.sq.length < b.sqEntries then some { b with sq := b.sq ++ [sqe] } else none

/-- `io_uring_submit`. The kernel takes entries from the front of the queue. A poll whose
cancellation it has taken completes in a step of its own, as every poll does. -/
def UringBackend.submit : Int × UringBackend :=
  let answer := b.submissions b.submitted
  let taken := b.sq.take answer.taken
  (answer.rc, { b with
    sq := b.sq.drop answer.taken
    kernel := b.kernel ++ taken.filterMap Sqe.asPoll
    cq := b.cq ++ taken.filterMap Sqe.asCancelled
    submitted := b.submitted + 1 })

variable (fd : Int32)

def UringBackend.setEntry (entry : UringFdEntry) : UringBackend :=
  { b with fdEntries := Function.update b.fdEntries fd entry }

/-- The code, and the generation that the poll carries. -/
def uringPreparePoll (events : UInt32) : Rc × UInt32 × UringBackend :=
  let gen := (b.fdEntries fd).lastGen + 1
  match b.queue (.poll ⟨fd, toPollMask events, uringEncodeGen gen fd, b.registrations⟩) with
  | none => (.err .eio, 0, b)
  | some queued =>
    let (rc, sent) := UringBackend.submit
      { queued.setEntry fd { b.fdEntries fd with lastGen := gen } with
        registrations := b.registrations + 1 }
    (if rc < 0 then .err .eio else .ok, gen, sent)

def uringCancel (identity : UInt64) : Rc × UringBackend :=
  match b.queue (.cancel identity) with
  | none => (.err .eio, b)
  | some queued =>
    let (rc, sent) := queued.submit
    (if rc < 0 then .err .eio else .ok, sent)

def UringBackend.wakePoll : Sqe := .poll ⟨b.wakeFd, 0x1, uringDataWake, 0⟩

def uringRearm : UringBackend :=
  let entry := b.fdEntries fd
  if entry.fd ≠ fd then b
  else
    match b.queue (.poll ⟨fd, toPollMask entry.events, uringEncodeGen entry.gen fd,
      entry.registration⟩) with
    | none => b
    | some queued => queued

def uringRearmWake : UringBackend :=
  match b.queue b.wakePoll with
  | none => b
  | some queued => queued.submit.2

def uringEnsureWakeRegistered : Rc × UringBackend :=
  if b.wakeFdAdded then (.ok, b)
  else
    match b.queue b.wakePoll with
    | none => (.err .eio, b)
    | some queued =>
      let (rc, sent) := queued.submit
      if rc < 0 then (.err .eio, sent) else (.ok, { sent with wakeFdAdded := true })

def UringBackend.inside : Bool :=
  !(fd < 0) && fd.toUInt32 < b.fdCapacity

def uringAdd (events : UInt32) : Rc × UringBackend :=
  if !b.inside fd then (.err .einval, b)
  else
    match uringEnsureWakeRegistered b with
    | (.err code, b) => (.err code, b)
    | (.ok, b) =>
      if uringGenMax ≤ (b.fdEntries fd).lastGen then (.err .ebusy, b)
      else
        match uringPreparePoll b fd events with
        | (.err code, _, sent) => (.err code, sent)
        | (.ok, gen, sent) =>
          (.ok, sent.setEntry fd { sent.fdEntries fd with
            fd := fd, events := events, gen := gen, registration := b.registrations })

def uringMod (events : UInt32) : Rc × UringBackend :=
  if !b.inside fd then (.err .einval, b)
  else if (b.fdEntries fd).fd ≠ fd then (.err .enoent, b)
  else if events = (b.fdEntries fd).events then (.ok, b)
  else if uringGenMax ≤ (b.fdEntries fd).lastGen then (.err .ebusy, b)
  else
    match uringCancel b (uringEncodeGen (b.fdEntries fd).gen fd) with
    | (.err code, b) => (.err code, b)
    | (.ok, b) =>
      match uringPreparePoll b fd events with
      | (.err code, _, sent) => (.err code, sent)
      | (.ok, gen, sent) =>
        (.ok, sent.setEntry fd { sent.fdEntries fd with
          gen := gen, events := events, registration := b.registrations })

def uringDelFn : Rc × UringBackend :=
  if !b.inside fd then (.err .einval, b)
  else if (b.fdEntries fd).fd ≠ fd then (.err .enoent, b)
  else
    uringCancel (b.setEntry fd { b.fdEntries fd with fd := -1, events := 0 })
      (uringEncodeGen (b.fdEntries fd).gen fd)

/-- A dispatch under way: the descriptor, the events, the generation before the handler, and
the registration that the completed poll was armed for. -/
structure Dispatch where
  fd : Int32
  revents : UInt32
  genBefore : UInt32
  registration : Nat
  deriving DecidableEq

/-- Whether the identity is that of the descriptor's present registration. -/
def UringBackend.isCurrent (data : UInt64) : Bool :=
  let fd := uringDecodeFd data
  fd.toUInt32 < b.fdCapacity && (b.fdEntries fd).fd == fd &&
    (b.fdEntries fd).gen == uringDecodeGen data

/-- `uring_process_cqe` up to the call of the handler. -/
def uringProcessCqe (cqe : Cqe) : Option Dispatch × UringBackend :=
  if cqe.data = uringDataWake then (none, uringRearmWake b)
  else if cqe.data = uringDataCancel then (none, b)
  else if !b.isCurrent cqe.data then (none, b)
  else
    let fd := uringDecodeFd cqe.data
    if cqeEvents cqe.res ≠ 0 then
      (some
        ⟨fd, cqeEvents cqe.res, (b.fdEntries fd).gen, (cqe.asPoll.map Poll.registration).getD 0⟩, b)
    else (none, uringRearm b fd)

/-- `uring_process_cqe` after the handler has returned. -/
def uringAfterDispatch (dispatch : Dispatch) : UringBackend :=
  let entry := b.fdEntries dispatch.fd
  if entry.fd = dispatch.fd ∧ entry.gen = dispatch.genBefore then uringRearm b dispatch.fd else b

/-- The backend that `uring_init` has set up before it arms the wake poll. -/
def UringBackend.blank (fdCapacity : UInt32) (wakeFd : Int32) (sqEntries : Nat)
    (submissions : Nat → Submission) : UringBackend where
  fdEntries _ := ⟨-1, 0, 0, 0, 0⟩
  fdCapacity := fdCapacity
  wakeFd := wakeFd
  wakeFdAdded := false
  sqEntries := sqEntries
  sq := []
  kernel := []
  cq := []
  submissions := submissions
  submitted := 0
  registrations := 0

def uringInit (fdCapacity : UInt32) (wakeFd : Int32) (sqEntries : Nat)
    (submissions : Nat → Submission) : Rc × UringBackend :=
  uringEnsureWakeRegistered (.blank fdCapacity wakeFd sqEntries submissions)

end Model

section Flight

/-- All polls that are prepared, with the kernel, or completed and waiting. -/
def UringBackend.flight (b : UringBackend) : Multiset Poll :=
  ↑(b.sq.filterMap Sqe.asPoll ++ (b.kernel ++ b.cq.filterMap Cqe.asPoll))

variable {b queued : UringBackend} {sqe : Sqe} {p : Poll}

theorem mem_flight : p ∈ b.flight ↔ .poll p ∈ b.sq ∨ p ∈ b.kernel ∨ ∃ res, .poll p res ∈ b.cq := by
  simp only [UringBackend.flight, Multiset.mem_coe, mem_append, mem_filterMap]
  refine or_congr ?_ (or_congr Iff.rfl ?_)
  · constructor
    · rintro ⟨sqe, mem, is⟩
      cases sqe with
      | poll q =>
        cases is
        exact mem
      | cancel _ => cases is
    · exact fun mem => ⟨_, mem, rfl⟩
  · constructor
    · rintro ⟨cqe, mem, is⟩
      cases cqe with
      | poll q res =>
        cases is
        exact ⟨res, mem⟩
      | cancel => cases is
    · rintro ⟨res, mem⟩
      exact ⟨_, mem, rfl⟩

/-- What the code of the backend can change: the entries and the polls in flight. -/
structure Keeps (b b' : UringBackend) : Prop where
  entries : b'.fdEntries = b.fdEntries
  capacity : b'.fdCapacity = b.fdCapacity
  flight : b'.flight = b.flight

theorem Keeps.trans {b₁ b₂ b₃ : UringBackend} (first : Keeps b₁ b₂) (second : Keeps b₂ b₃) :
    Keeps b₁ b₃ :=
  ⟨second.entries.trans first.entries, second.capacity.trans first.capacity,
    second.flight.trans first.flight⟩

theorem cancelled_polls (taken : List Sqe) :
    (taken.filterMap Sqe.asCancelled).filterMap Cqe.asPoll = [] := by
  induction taken with
  | nil => rfl
  | cons sqe rest ih =>
    cases sqe with
    | poll p => simpa [Sqe.asCancelled] using ih
    | cancel id => simpa [Sqe.asCancelled, Cqe.asPoll] using ih

theorem submit_keeps (b : UringBackend) : Keeps b b.submit.2 := by
  refine ⟨rfl, rfl, ?_⟩
  simp only [UringBackend.flight, UringBackend.submit, filterMap_append, cancelled_polls,
    append_nil, Multiset.coe_eq_coe]
  generalize (b.submissions b.submitted).taken = n
  calc (b.sq.drop n).filterMap Sqe.asPoll ++
        (b.kernel ++ (b.sq.take n).filterMap Sqe.asPoll ++ b.cq.filterMap Cqe.asPoll)
    _ = (b.sq.drop n).filterMap Sqe.asPoll ++ (b.kernel ++ ((b.sq.take n).filterMap Sqe.asPoll ++
          b.cq.filterMap Cqe.asPoll)) := by rw [append_assoc]
    List.Perm _ ((b.sq.take n).filterMap Sqe.asPoll ++ ((b.sq.drop n).filterMap Sqe.asPoll ++
          (b.kernel ++ b.cq.filterMap Cqe.asPoll))) := by
      rw [perm_iff_count]
      intro p
      simp only [count_append]
      omega
    _ = b.sq.filterMap Sqe.asPoll ++ (b.kernel ++ b.cq.filterMap Cqe.asPoll) := by
      rw [← append_assoc, ← filterMap_append, take_append_drop]

theorem queue_some (found : b.queue sqe = some queued) :
    b.sq.length < b.sqEntries ∧ queued = { b with sq := b.sq ++ [sqe] } := by
  rw [UringBackend.queue] at found
  split at found
  · exact ⟨‹_›, (Option.some.inj found).symm⟩
  · cases found

theorem queue_frame (found : b.queue sqe = some queued) :
    queued.fdEntries = b.fdEntries ∧ queued.fdCapacity = b.fdCapacity := by
  obtain ⟨-, rfl⟩ := queue_some found
  exact ⟨rfl, rfl⟩

theorem queue_none (full : b.queue sqe = none) : ¬b.sq.length < b.sqEntries := by
  rw [UringBackend.queue] at full
  split at full
  · cases full
  · assumption

theorem queue_cancel_keeps {identity : UInt64} (found : b.queue (.cancel identity) = some queued) :
    Keeps b queued := by
  obtain ⟨-, rfl⟩ := queue_some found
  refine ⟨rfl, rfl, ?_⟩
  rw [UringBackend.flight, filterMap_append,
    show [Sqe.cancel identity].filterMap Sqe.asPoll = [] from rfl, append_nil,
    UringBackend.flight]

theorem flight_queue_poll (found : b.queue (.poll p) = some queued) :
    queued.flight = p ::ₘ b.flight := by
  obtain ⟨-, rfl⟩ := queue_some found
  rw [UringBackend.flight, filterMap_append,
    show [Sqe.poll p].filterMap Sqe.asPoll = [p] from rfl, append_assoc,
    UringBackend.flight, Multiset.cons_coe, Multiset.coe_eq_coe]
  exact perm_middle

theorem uringCancel_keeps (b : UringBackend) (identity : UInt64) :
    Keeps b (uringCancel b identity).2 := by
  rw [uringCancel]
  cases found : b.queue (.cancel identity) with
  | none => exact ⟨rfl, rfl, rfl⟩
  | some queued => exact (queue_cancel_keeps found).trans (submit_keeps queued)

end Flight

end Kith.Reactor
