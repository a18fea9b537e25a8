/-
Sqlate/QueryWatcher.lean

`SqlQueryWatcherHelper`: the dialog that is shown when queries take long.

A query that is executed is to have a helper in a thread of its own (the start of the thread,
where `KDThreadRunnerBase` goes by a pointer that is never set, is left out).  When its timer
expires, a helper shows the dialog, which is a process, unless one is visible; when
the process has finished, or at the latest when the helper is destroyed, the dialog is
not visible any more.  The helpers share a mutex and the flag `s_dialogVisible`; a step
is a statement of one of them, or a signal that it gets.

The flag is set exactly if there is a helper that has set it, and has not been told of
the end of its process (`Inv`).  So there is one dialog at most, and the flag is left set
exactly by a process that could not be started, or outlived its helper
(`dialogVisible_iff_of_rest`).  No dialog is shown after that (`noDialog_of_isLost`).

Of `QProcess` is taken that a process that does not start does not finish, that
`waitForStarted` and `waitForFinished` give up in the end, that `start` does nothing
to a process that is starting or running, and that nobody is told of the end of a
process after the destructor.  The event loop and these two calls are where a helper
gets to know about its process.
-/
import Sqlate.Base.Processes

namespace Sqlate

open Processes (Held)

/-- Where a helper is: in front of which statement.  The second half of the places is in
`timerExpired` and in `dialogHidden`, which is called by the event loop or by
`waitForFinished`. -/
inductive HelperAt
  | unborn
  | looping (timer : Bool)
  | destroying
  | killing
  | gone
  | locking
  | testing
  | showing
  | creating
  | starting (again : Bool)
  | waiting (again : Bool)
  | unlocking
  | hideLocking (inLoop : Bool)
  | hideClearing (inLoop : Bool)
  | hideUnlocking (inLoop : Bool)
  deriving DecidableEq, Repr

/-- `m_process`, as the helper knows it. -/
inductive DialogProcess
  | absent
  | created
  | starting
  | running
  | failed
  | finished
  /-- The helper has been destroyed without having been told of the end. -/
  | abandoned
  deriving DecidableEq, Repr

namespace HelperAt

/-- Inside of a `QMutexLocker`. -/
def holds : HelperAt → Bool
  | testing | showing | creating | starting _ | waiting _ | unlocking => true
  | hideClearing _ | hideUnlocking _ => true
  | _ => false

/-- In the event loop, `waitForStarted` or `waitForFinished`. -/
def listens : HelperAt → Bool
  | looping _ | waiting _ | killing => true
  | _ => false

/-- The helper has set the flag, and has to clear it. -/
def shows : HelperAt → Bool
  | creating | starting _ | waiting _ | hideLocking _ | hideClearing _ => true
  | _ => false

/-- The timer has not expired, or the dialog has not been created yet. -/
def isEarly : HelperAt → Bool
  | unborn | looping true | locking | testing | showing | creating => true
  | _ => false

/-- There are no more attempts to start the dialog. -/
def isPast : HelperAt → Bool
  | waiting true | unlocking | looping false | destroying | killing | gone => true
  | _ => false

/-- In `dialogHidden`. -/
def hides : HelperAt → Bool
  | hideLocking _ | hideClearing _ | hideUnlocking _ => true
  | _ => false

/-- In the event loop, or there is no helper. -/
def rests : HelperAt → Bool
  | unborn | looping _ | gone => true
  | _ => false

/-- How many steps are left at most. -/
def rank : HelperAt → Nat
  | gone => 0
  | killing => 1
  | destroying => 2
  | looping false => 3
  | hideUnlocking inLoop => if inLoop then 4 else 2
  | hideClearing inLoop => if inLoop then 5 else 3
  | hideLocking inLoop => if inLoop then 6 else 4
  | unlocking => 4
  | waiting true => 5
  -- a process that is started brings six more
  | starting true => 12
  | waiting false => 13
  | starting false => 20
  | creating => 21
  | showing => 22
  | testing => 23
  | locking => 24
  | looping true => 25
  | unborn => 26

end HelperAt

namespace DialogProcess

/-- `QProcess::start`. -/
def start : DialogProcess → DialogProcess
  | running => running
  | _ => starting

/-- The destructor of the process, which nobody is connected to any more. -/
def destroy : DialogProcess → DialogProcess
  | starting | running => abandoned
  | p => p

/-- There is a dialog. -/
def isAlive : DialogProcess → Bool
  | starting | running => true
  | _ => false

/-- The process has been started, and its end has not been reported. -/
def isPending : DialogProcess → Bool
  | starting | running | failed | abandoned => true
  | _ => false

def rank : DialogProcess → Nat
  | starting => 6
  | running => 5
  | _ => 0

end DialogProcess

/-- A `SqlQueryWatcherHelper`. -/
structure WatcherHelper where
  place : HelperAt
  process : DialogProcess
  deriving DecidableEq, Repr

/-- What comes from outside of a helper. -/
inductive HelperSignal
  /-- The thread creates the helper. -/
  | construct
  | timeout
  | started
  | error
  | finished
  /-- The event loop comes to its end. -/
  | quit
  deriving DecidableEq, Repr

namespace WatcherHelper

def new : WatcherHelper where
  place := .unborn
  process := .absent

/-- A signal, if it can come now. -/
def receive (h : WatcherHelper) : HelperSignal → Option WatcherHelper
  | .construct => if h.place = .unborn then some { h with place := .looping true } else none
  | .timeout => if h.place = .looping true then some { h with place := .locking } else none
  | .started =>
      if h.place.listens ∧ h.process = .starting then some { h with process := .running } else none
  | .error =>
      if h.place.listens ∧ h.process = .starting then some { h with process := .failed } else none
  | .finished =>
      match h.place, h.process with
      | .looping _, .running => some { place := .hideLocking true, process := .finished }
      | .killing, .running => some { place := .hideLocking false, process := .finished }
      | _, _ => none
  | .quit =>
      match h.place with
      | .looping _ => some { h with place := .destroying }
      | _ => none

/-- What the next statement makes of the helper itself. -/
def next (h : WatcherHelper) (dialogVisible : Bool) : WatcherHelper :=
  match h.place with
  | .locking => { h with place := .testing }
  | .testing => { h with place := if dialogVisible then .unlocking else .showing }
  | .showing => { h with place := .creating }
  | .creating => { place := .starting false, process := .created }
  | .starting again => { place := .waiting again, process := h.process.start }
  | .waiting again =>
      { h with place := if h.process = .running ∨ again then .unlocking else .starting true }
  | .unlocking => { h with place := .looping false }
  | .hideLocking inLoop => { h with place := .hideClearing inLoop }
  | .hideClearing inLoop => { h with place := .hideUnlocking inLoop }
  | .hideUnlocking inLoop => { h with place := if inLoop then .looping false else .killing }
  | .destroying => { h with place := if h.process = .absent then .gone else .killing }
  | .killing => { place := .gone, process := h.process.destroy }
  | .unborn | .looping _ | .gone => h

/-- The flag is set because of this helper. -/
def owns (h : WatcherHelper) : Bool := h.place.shows || h.process.isPending

/-- The process has not been started, or has not been reported to have ended, and will not be
any more. -/
def isLost (h : WatcherHelper) : Bool :=
  h.place.isPast && (h.process == .failed || h.process == .abandoned)

def rank (h : WatcherHelper) : Nat := h.place.rank + h.process.rank

/-- The process is as the place of the helper tells. -/
def isOk (h : WatcherHelper) : Bool :=
  match h.place with
  | .waiting _ => h.process.isPending
  | .hideLocking _ | .hideClearing _ | .hideUnlocking _ => h.process == .finished
  | place => !place.isEarly || h.process == .absent

/-- What a step of a helper does to it, except for its place. -/
structure Passes (h h' : WatcherHelper) : Prop where
  isOk : h'.isOk = true
  rank : h'.rank < h.rank
  isLost : h.isLost = true → h'.isLost = true
  /-- Only a helper that has set the flag gets a process. -/
  absent : h.process = .absent → h'.process = .absent ∨ h.owns = true

instance (h h' : WatcherHelper) : Decidable (Passes h h') :=
  decidable_of_iff
    (h'.isOk = true ∧ h'.rank < h.rank ∧ (h.isLost = true → h'.isLost = true)
      ∧ (h.process = .absent → h'.process = .absent ∨ h.owns = true))
    ⟨fun ⟨hok, hrank, hlost, habsent⟩ => ⟨hok, hrank, hlost, habsent⟩,
      fun ⟨hok, hrank, hlost, habsent⟩ => ⟨hok, hrank, hlost, habsent⟩⟩

/-- What a signal can do. -/
inductive Receives : WatcherHelper → WatcherHelper → Prop
  | construct (process : DialogProcess) : Receives ⟨.unborn, process⟩ ⟨.looping true, process⟩
  | timeout (process : DialogProcess) : Receives ⟨.looping true, process⟩ ⟨.locking, process⟩
  | started {place : HelperAt} (hplace : place.listens = true) :
      Receives ⟨place, .starting⟩ ⟨place, .running⟩
  | error {place : HelperAt} (hplace : place.listens = true) :
      Receives ⟨place, .starting⟩ ⟨place, .failed⟩
  | finished (timer : Bool) : Receives ⟨.looping timer, .running⟩ ⟨.hideLocking true, .finished⟩
  | finishedLast : Receives ⟨.killing, .running⟩ ⟨.hideLocking false, .finished⟩
  | quit (timer : Bool) (process : DialogProcess) :
      Receives ⟨.looping timer, process⟩ ⟨.destroying, process⟩

theorem receives_of_receive {h h' : WatcherHelper} {signal : HelperSignal}
    (hreceive : h.receive signal = some h') : Receives h h' := by
  obtain ⟨place, process⟩ := h
  cases signal <;> simp only [receive] at hreceive
  case construct =>
    split at hreceive
    next hplace =>
      cases hreceive
      obtain rfl : place = .unborn := hplace
      exact .construct process
    next => cases hreceive
  case timeout =>
    split at hreceive
    next hplace =>
      cases hreceive
      obtain rfl : place = .looping true := hplace
      exact .timeout process
    next => cases hreceive
  case started =>
    split at hreceive
    next hplace =>
      cases hreceive
      obtain ⟨hlistens, rfl⟩ : place.listens = true ∧ process = .starting := hplace
      exact .started hlistens
    next => cases hreceive
  case error =>
    split at hreceive
    next hplace =>
      cases hreceive
      obtain ⟨hlistens, rfl⟩ : place.listens = true ∧ process = .starting := hplace
      exact .error hlistens
    next => cases hreceive
  case finished =>
    split at hreceive <;> cases hreceive
    · exact .finished _
    · exact .finishedLast
  case quit =>
    split at hreceive <;> cases hreceive
    exact .quit _ process

/-- A signal does not get a helper into the mutex or out of it, and leaves the flag to it. -/
theorem Receives.passes {h h' : WatcherHelper} (hreceives : Receives h h') (hok : h.isOk = true) :
    Passes h h' ∧ h'.place.holds = h.place.holds ∧ h'.owns = h.owns ∧ h'.place ≠ .showing := by
  revert hok
  cases hreceives with
  | construct process => cases process <;> decide
  | timeout process => cases process <;> decide
  | @started place hplace =>
      revert hplace
      cases place with
      | looping timer => cases timer <;> decide
      | waiting again => cases again <;> decide
      | killing => decide
      | _ => nofun
  | @error place hplace =>
      revert hplace
      cases place with
      | looping timer => cases timer <;> decide
      | waiting again => cases again <;> decide
      | killing => decide
      | _ => nofun
  | finished timer => cases timer <;> decide
  | finishedLast => decide
  | quit timer process => cases timer <;> cases process <;> decide

theorem passes_next {h : WatcherHelper} (dialogVisible : Bool) (hok : h.isOk = true)
    (hrests : h.place.rests = false) : Passes h (h.next dialogVisible) := by
  obtain ⟨place, process⟩ := h
  revert hok hrests
  cases place with
  | looping timer => exact fun _ => nofun
  | starting again => cases again <;> cases process <;> cases dialogVisible <;> decide
  | waiting again => cases again <;> cases process <;> cases dialogVisible <;> decide
  | hideLocking inLoop => cases inLoop <;> cases process <;> cases dialogVisible <;> decide
  | hideClearing inLoop => cases inLoop <;> cases process <;> cases dialogVisible <;> decide
  | hideUnlocking inLoop => cases inLoop <;> cases process <;> cases dialogVisible <;> decide
  | _ => cases process <;> cases dialogVisible <;> decide

theorem owns_next_waiting {again : Bool} {process : DialogProcess} (dialogVisible : Bool)
    (hok : (⟨.waiting again, process⟩ : WatcherHelper).isOk = true) :
    (next ⟨.waiting again, process⟩ dialogVisible).owns = true := by
  revert hok
  cases again <;> cases process <;> cases dialogVisible <;> decide

theorem owns_next_hideClearing {inLoop : Bool} {process : DialogProcess} (dialogVisible : Bool)
    (hok : (⟨.hideClearing inLoop, process⟩ : WatcherHelper).isOk = true) :
    (next ⟨.hideClearing inLoop, process⟩ dialogVisible).owns = false := by
  revert hok
  cases inLoop <;> cases process <;> cases dialogVisible <;> decide

/-- In the event loop the flag is set because of a dialog, or because of one that is lost. -/
theorem owns_iff_of_rests {h : WatcherHelper} (hok : h.isOk = true) (hrests : h.place.rests = true) :
    h.owns = true ↔ h.process.isAlive = true ∨ h.isLost = true := by
  obtain ⟨place, process⟩ := h
  revert hok hrests
  cases place with
  | looping timer => cases timer <;> cases process <;> decide
  | unborn => cases process <;> decide
  | gone => cases process <;> decide
  | _ => exact fun _ => nofun

theorem owns_of_isAlive {h : WatcherHelper} (halive : h.process.isAlive = true) : h.owns = true := by
  obtain ⟨place, process⟩ := h
  revert halive
  cases process with
  | starting => exact fun _ => Bool.or_true _
  | running => exact fun _ => Bool.or_true _
  | _ => nofun

theorem owns_of_isLost {h : WatcherHelper} (hlost : h.isLost = true) : h.owns = true := by
  obtain ⟨place, process⟩ := h
  have hprocess := (Bool.and_eq_true_iff.1 hlost).2
  cases process with
  | failed => exact Bool.or_true _
  | abandoned => exact Bool.or_true _
  | _ => cases hprocess

theorem isAlive_eq_false_of_isLost {h : WatcherHelper} (hlost : h.isLost = true) :
    h.process.isAlive = false := by
  obtain ⟨place, process⟩ := h
  have hprocess := (Bool.and_eq_true_iff.1 hlost).2
  cases process with
  | starting => cases hprocess
  | running => cases hprocess
  | _ => rfl

end WatcherHelper

/-- The helpers of all queries that are executed, the mutex and the flag. -/
structure QueryWatchers (ι : Type) where
  mutex : Option ι
  s_dialogVisible : Bool
  helper : ι → WatcherHelper

inductive WatcherEvent (ι : Type)
  | statement (i : ι)
  | signal (i : ι) (signal : HelperSignal)
  deriving DecidableEq

/-- The helper that makes the step. -/
def WatcherEvent.helper {ι : Type} : WatcherEvent ι → ι
  | statement i => i
  | signal i _ => i

namespace QueryWatchers

variable {ι : Type} [DecidableEq ι]

def new : QueryWatchers ι where
  mutex := none
  s_dialogVisible := false
  helper := fun _ => .new

def set (s : QueryWatchers ι) (i : ι) (h : WatcherHelper) : QueryWatchers ι :=
  { s with helper := Function.update s.helper i h }

/-- The next statement of a helper; one that blocks is not executed. -/
def statement (s : QueryWatchers ι) (i : ι) : QueryWatchers ι :=
  let h := (s.helper i).next s.s_dialogVisible
  match (s.helper i).place with
  | .locking | .hideLocking _ => if s.mutex = none then { s.set i h with mutex := some i } else s
  | .showing => { s.set i h with s_dialogVisible := true }
  | .hideClearing _ => { s.set i h with s_dialogVisible := false }
  | .unlocking | .hideUnlocking _ => { s.set i h with mutex := none }
  | .testing | .creating | .starting _ | .waiting _ | .destroying | .killing => s.set i h
  | .unborn | .looping _ | .gone => s

def step (s : QueryWatchers ι) : WatcherEvent ι → QueryWatchers ι
  | .statement i => s.statement i
  | .signal i signal =>
      match (s.helper i).receive signal with
      | some h => s.set i h
      | none => s

/-- A statement that is not blocked, or a signal that comes. -/
def Works (s : QueryWatchers ι) : WatcherEvent ι → Prop
  | .statement i =>
      match (s.helper i).place with
      | .unborn | .looping _ | .gone => False
      | .locking | .hideLocking _ => s.mutex = none
      | _ => True
  | .signal i signal => ((s.helper i).receive signal).isSome = true

/-- What a helper can do. -/
inductive Move (s : QueryWatchers ι) (i : ι) : QueryWatchers ι → Prop
  | go {h : WatcherHelper} (hpasses : (s.helper i).Passes h)
      (hholds : h.place.holds = (s.helper i).place.holds) (howns : h.owns = (s.helper i).owns)
      (hshowing : h.place = .showing → s.s_dialogVisible = false) : Move s i (s.set i h)
  | lock {h : WatcherHelper} (hpasses : (s.helper i).Passes h) (hfree : s.mutex = none)
      (hholds : h.place.holds = true) (howns : h.owns = (s.helper i).owns)
      (hshowing : h.place ≠ .showing) : Move s i { s.set i h with mutex := some i }
  | unlock {h : WatcherHelper} (hpasses : (s.helper i).Passes h)
      (hheld : (s.helper i).place.holds = true) (hholds : h.place.holds = false)
      (howns : h.owns = (s.helper i).owns) (hshowing : h.place ≠ .showing) :
      Move s i { s.set i h with mutex := none }
  | show {h : WatcherHelper} (hpasses : (s.helper i).Passes h) (hi : (s.helper i).place = .showing)
      (hholds : h.place.holds = true) (howns : h.owns = true) (hshowing : h.place ≠ .showing) :
      Move s i { s.set i h with s_dialogVisible := true }
  | hide {h : WatcherHelper} (hpasses : (s.helper i).Passes h)
      (hholds : h.place.holds = (s.helper i).place.holds) (howned : (s.helper i).owns = true)
      (howns : h.owns = false) : Move s i { s.set i h with s_dialogVisible := false }

variable {s s' : QueryWatchers ι} {i j : ι}

/-- A helper in the event loop, or without one, executes no statement. -/
theorem statement_cases (hok : (s.helper i).isOk = true) :
    ¬s.Works (.statement i) ∧ s.statement i = s ∨ s.Works (.statement i) ∧ Move s i (s.statement i) := by
  have hpasses := WatcherHelper.passes_next s.s_dialogVisible hok
  rw [statement, Works]
  rcases hi : s.helper i with ⟨place, process⟩
  rw [hi] at hok hpasses
  cases place with
  | unborn => exact .inl ⟨id, rfl⟩
  | looping timer => exact .inl ⟨id, rfl⟩
  | gone => exact .inl ⟨id, rfl⟩
  | locking =>
      by_cases hfree : s.mutex = none
      · refine .inr ⟨hfree, ?_⟩
        show Move s i (if s.mutex = none then _ else s)
        rw [if_pos hfree]
        exact .lock (by rw [hi]; exact hpasses rfl) hfree rfl (by rw [hi]; rfl) nofun
      · exact .inl ⟨hfree, if_neg hfree⟩
  | hideLocking inLoop =>
      by_cases hfree : s.mutex = none
      · refine .inr ⟨hfree, ?_⟩
        show Move s i (if s.mutex = none then _ else s)
        rw [if_pos hfree]
        exact .lock (by rw [hi]; exact hpasses rfl) hfree rfl (by rw [hi]; rfl) nofun
      · exact .inl ⟨hfree, if_neg hfree⟩
  | testing =>
      refine .inr ⟨trivial, .go (by rw [hi]; exact hpasses rfl) ?_ ?_ ?_⟩
      · rw [hi]
        cases s.s_dialogVisible <;> rfl
      · rw [hi]
        cases s.s_dialogVisible <;> rfl
      · cases s.s_dialogVisible
        · exact fun _ => rfl
        · nofun
  | showing => exact .inr ⟨trivial, .show (by rw [hi]; exact hpasses rfl) (by rw [hi]) rfl rfl nofun⟩
  | creating =>
      exact .inr ⟨trivial, .go (by rw [hi]; exact hpasses rfl) (by rw [hi]; rfl) (by rw [hi]; rfl) nofun⟩
  | starting again =>
      exact .inr ⟨trivial, .go (by rw [hi]; exact hpasses rfl) (by rw [hi]; rfl) (by rw [hi]; rfl) nofun⟩
  | waiting again =>
      refine .inr ⟨trivial, .go (by rw [hi]; exact hpasses rfl) ?_ ?_ ?_⟩
      · rw [hi]
        cases again <;> cases process <;> rfl
      · rw [hi]
        exact WatcherHelper.owns_next_waiting _ hok
      · cases again <;> cases process <;> nofun
  | unlocking =>
      exact .inr ⟨trivial, .unlock (by rw [hi]; exact hpasses rfl) (by rw [hi]; rfl) rfl
        (by rw [hi]; rfl) nofun⟩
  | hideClearing inLoop =>
      exact .inr ⟨trivial, .hide (by rw [hi]; exact hpasses rfl) (by rw [hi]; rfl) (by rw [hi]; rfl)
        (WatcherHelper.owns_next_hideClearing _ hok)⟩
  | hideUnlocking inLoop =>
      refine .inr ⟨trivial, .unlock (by rw [hi]; exact hpasses rfl) (by rw [hi]; rfl) ?_ ?_ ?_⟩
      · cases inLoop <;> rfl
      · rw [hi]
        cases inLoop <;> rfl
      · cases inLoop <;> nofun
  | destroying =>
      refine .inr ⟨trivial, .go (by rw [hi]; exact hpasses rfl) ?_ ?_ ?_⟩
      · rw [hi]
        cases process <;> rfl
      · rw [hi]
        cases process <;> rfl
      · cases process <;> nofun
  | killing =>
      refine .inr ⟨trivial, .go (by rw [hi]; exact hpasses rfl) (by rw [hi]; rfl) ?_ nofun⟩
      rw [hi]
      cases process <;> rfl

/-- A step does nothing, or it is a move of its helper. -/
theorem step_cases (e : WatcherEvent ι) (hok : ∀ i, (s.helper i).isOk = true) :
    ¬s.Works e ∧ s.step e = s ∨ s.Works e ∧ Move s e.helper (s.step e) := by
  cases e with
  | statement i => exact statement_cases (hok i)
  | signal i signal =>
      rw [step, Works]
      cases hreceive : (s.helper i).receive signal with
      | none => exact .inl ⟨nofun, rfl⟩
      | some h =>
          obtain ⟨hpasses, hholds, howns, hshowing⟩ :=
            (WatcherHelper.receives_of_receive hreceive).passes (hok i)
          exact .inr ⟨rfl, .go hpasses hholds howns fun h => absurd h hshowing⟩

/-- Every move is one of its helper alone. -/
theorem Move.exists_passes (hmove : Move s i s') :
    ∃ h, (s.helper i).Passes h ∧ s'.helper = Function.update s.helper i h := by
  cases hmove with
  | go hpasses => exact ⟨_, hpasses, rfl⟩
  | lock hpasses => exact ⟨_, hpasses, rfl⟩
  | unlock hpasses => exact ⟨_, hpasses, rfl⟩
  | «show» hpasses => exact ⟨_, hpasses, rfl⟩
  | hide hpasses => exact ⟨_, hpasses, rfl⟩

/-! ### The invariant -/

/-- What holds in any order of the steps. -/
structure Inv (s : QueryWatchers ι) : Prop where
  isOk : ∀ i, (s.helper i).isOk = true
  holder : Held (fun h : WatcherHelper => h.place.holds) s.helper s.mutex
  /-- The flag tells whether somebody has set it. -/
  owner : ∃ owner, Held WatcherHelper.owns s.helper owner ∧ s.s_dialogVisible = owner.isSome
  showing : ∀ i, (s.helper i).place = .showing → s.s_dialogVisible = false

omit [DecidableEq ι] in
theorem inv_new : (new : QueryWatchers ι).Inv where
  isOk _ := rfl
  holder _ := iff_of_false nofun nofun
  owner := ⟨none, fun _ => iff_of_false nofun nofun, rfl⟩
  showing _ _ := rfl

theorem Inv.move (hinv : s.Inv) (hmove : Move s i s') : s'.Inv := by
  have hisOk : ∀ j, (s'.helper j).isOk = true := by
    obtain ⟨h, hpasses, hhelper⟩ := hmove.exists_passes
    rw [hhelper]
    exact (Function.forall_update_iff s.helper fun _ h => h.isOk = true).2
      ⟨hpasses.isOk, fun j _ => hinv.isOk j⟩
  obtain ⟨owner, howner, hvisible⟩ := hinv.owner
  cases hmove with
  | @go h hpasses hholds howns hshowing =>
      exact {
        isOk := hisOk
        holder := hinv.holder.update hholds
        owner := ⟨owner, howner.update howns, hvisible⟩
        showing := (Function.forall_update_iff s.helper
          fun _ h => h.place = .showing → s.s_dialogVisible = false).2
            ⟨hshowing, fun j _ => hinv.showing j⟩ }
  | @lock h hpasses hfree hholds howns hshowing =>
      have hholder := hinv.holder
      rw [hfree] at hholder
      exact {
        isOk := hisOk
        holder := hholder.lock hholds
        owner := ⟨owner, howner.update howns, hvisible⟩
        showing := (Function.forall_update_iff s.helper
          fun _ h => h.place = .showing → s.s_dialogVisible = false).2
            ⟨fun h => absurd h hshowing, fun j _ => hinv.showing j⟩ }
  | @unlock h hpasses hheld hholds howns hshowing =>
      exact {
        isOk := hisOk
        holder := hinv.holder.unlock hheld hholds
        owner := ⟨owner, howner.update howns, hvisible⟩
        showing := (Function.forall_update_iff s.helper
          fun _ h => h.place = .showing → s.s_dialogVisible = false).2
            ⟨fun h => absurd h hshowing, fun j _ => hinv.showing j⟩ }
  | @«show» h hpasses hi hholds howns hshowing =>
      have hheld : (s.helper i).place.holds = true := by rw [hi]; rfl
      have hnone : owner = none := by
        rw [hinv.showing i hi] at hvisible
        exact Option.isNone_iff_eq_none.1 (Option.isSome_eq_false_iff.1 hvisible.symm)
      rw [hnone] at howner
      exact {
        isOk := hisOk
        holder := hinv.holder.update (hholds.trans hheld.symm)
        owner := ⟨some i, howner.lock howns, rfl⟩
        -- the other helpers are outside of the mutex
        showing := (Function.forall_update_iff s.helper fun _ h => h.place = .showing → true = false).2
          ⟨fun h => absurd h hshowing, fun j hj hplace => by
            have hheld' : (s.helper j).place.holds = true := by rw [hplace]; rfl
            exact absurd (hinv.holder.unique hheld' hheld) hj⟩ }
  | @hide h hpasses hholds howned howns =>
      exact {
        isOk := hisOk
        holder := hinv.holder.update hholds
        owner := ⟨none, howner.unlock howned howns, rfl⟩
        showing := fun _ _ => rfl }

theorem Inv.step (hinv : s.Inv) (e : WatcherEvent ι) : (s.step e).Inv := by
  obtain ⟨-, hstep⟩ | ⟨-, hmove⟩ := step_cases e hinv.isOk
  · rw [hstep]
    exact hinv
  · exact hinv.move hmove

theorem inv_run (es : List (WatcherEvent ι)) : (Runs.run step (new : QueryWatchers ι) es).Inv :=
  Runs.run_invariant_of_forall (fun _ e hinv => hinv.step e) inv_new es

/-! ### The dialog -/

omit [DecidableEq ι] in
theorem Inv.unique (hinv : s.Inv) (hi : (s.helper i).owns = true) (hj : (s.helper j).owns = true) :
    i = j := by
  obtain ⟨owner, howner, -⟩ := hinv.owner
  exact howner.unique hi hj

omit [DecidableEq ι] in
theorem Inv.dialogVisible_iff (hinv : s.Inv) : s.s_dialogVisible = true ↔ ∃ i, (s.helper i).owns = true := by
  obtain ⟨owner, howner, hvisible⟩ := hinv.owner
  rw [hvisible, Option.isSome_iff_exists]
  exact exists_congr fun i => (howner i).symm

/-- **The dialog and the flag.**  Whatever the order of the steps, no two dialogs are there
at a time, and the flag is set while there is one.  When all helpers are in their event
loops or gone, the flag is set exactly if there is a dialog, or one could not be
started or was still there when its helper was destroyed. -/
theorem dialogVisible_iff_of_rest (es : List (WatcherEvent ι)) :
    (∀ i j, ((Runs.run step new es).helper i).process.isAlive = true →
      ((Runs.run step new es).helper j).process.isAlive = true → i = j)
      ∧ (∀ i, ((Runs.run step new es).helper i).process.isAlive = true →
        (Runs.run step new es).s_dialogVisible = true)
      ∧ ((∀ i, ((Runs.run step new es).helper i).place.rests = true) →
        ((Runs.run step new es).s_dialogVisible = true ↔
          ∃ i, ((Runs.run step new es).helper i).process.isAlive = true
            ∨ ((Runs.run step new es).helper i).isLost = true)) := by
  have hinv := inv_run es
  generalize Runs.run step new es = s at hinv
  refine ⟨fun i j hi hj => ?_, fun i hi => ?_, fun hrests => ?_⟩
  · exact hinv.unique (WatcherHelper.owns_of_isAlive hi) (WatcherHelper.owns_of_isAlive hj)
  · exact hinv.dialogVisible_iff.2 ⟨i, WatcherHelper.owns_of_isAlive hi⟩
  · rw [hinv.dialogVisible_iff]
    exact exists_congr fun i => WatcherHelper.owns_iff_of_rests (hinv.isOk i) (hrests i)

/-- A dialog that is lost stays lost. -/
theorem isLost_step (hinv : s.Inv) (e : WatcherEvent ι) (hlost : (s.helper i).isLost = true) :
    ((s.step e).helper i).isLost = true := by
  obtain ⟨-, hstep⟩ | ⟨-, hmove⟩ := step_cases e hinv.isOk
  · rw [hstep]
    exact hlost
  · obtain ⟨h, hpasses, hhelper⟩ := hmove.exists_passes
    rw [hhelper]
    by_cases hi : i = e.helper
    · subst hi
      rw [Function.update_self]
      exact hpasses.isLost hlost
    · rw [Function.update_of_ne hi]
      exact hlost

/-- **A dialog that is lost is the last one.**  From then on the flag is set, and no helper
has a dialog, in whatever order the helpers go on. -/
theorem noDialog_of_isLost (es es' : List (WatcherEvent ι)) (i : ι)
    (hlost : ((Runs.run step new es).helper i).isLost = true) :
    (Runs.run step (Runs.run step new es) es').s_dialogVisible = true
      ∧ ∀ j, ((Runs.run step (Runs.run step new es) es').helper j).process.isAlive = false := by
  have hkept := Runs.run_invariant_of_forall
    (I := fun s : QueryWatchers ι => s.Inv ∧ (s.helper i).isLost = true)
    (fun s e h => ⟨h.1.step e, isLost_step h.1 e h.2⟩) ⟨inv_run es, hlost⟩ es'
  generalize Runs.run step (Runs.run step new es) es' = s at hkept
  obtain ⟨hinv, hlost⟩ := hkept
  refine ⟨hinv.dialogVisible_iff.2 ⟨i, WatcherHelper.owns_of_isLost hlost⟩, fun j => ?_⟩
  by_contra hj
  have halive := Bool.eq_true_of_not_eq_false hj
  obtain rfl := hinv.unique (WatcherHelper.owns_of_isLost hlost) (WatcherHelper.owns_of_isAlive halive)
  exact hj (WatcherHelper.isAlive_eq_false_of_isLost hlost)

/-- A query that takes long, and a program for the dialog that is not found. -/
def notFound : List (WatcherEvent Bool) :=
  [.signal false .construct, .signal false .timeout, .statement false, .statement false,
    .statement false, .statement false, .statement false, .signal false .error, .statement false,
    .statement false, .signal false .error, .statement false, .statement false]

theorem noDialog_of_isLost_notFound :
    (Runs.run step (Runs.run step new notFound)
        [.signal true .construct, .signal true .timeout]).s_dialogVisible = true
      ∧ ∀ j, ((Runs.run step (Runs.run step new notFound)
        [.signal true .construct, .signal true .timeout]).helper j).process.isAlive = false :=
  noDialog_of_isLost notFound [.signal true .construct, .signal true .timeout] false rfl

/-! ### No helper is blocked -/

omit [DecidableEq ι] in
/-- While a helper is in a slot or in its destructor, somebody can go on. -/
theorem Inv.exists_works (hinv : s.Inv) (hi : (s.helper i).place.rests = false) :
    ∃ j, s.Works (.statement j) := by
  by_cases hfree : s.mutex = none
  · -- nobody is inside of the mutex, and nothing else is waited for
    refine ⟨i, ?_⟩
    rw [Works]
    cases hplace : (s.helper i).place <;> rw [hplace] at hi <;> first | exact hfree | trivial
  · obtain ⟨j, hj⟩ := Option.ne_none_iff_exists'.1 hfree
    have hholds : (s.helper j).place.holds = true := (hinv.holder j).2 hj
    refine ⟨j, ?_⟩
    rw [Works]
    cases hplace : (s.helper j).place <;> rw [hplace] at hholds <;> trivial

/-- A step uses up something of its helper. -/
theorem rank_step_lt (hinv : s.Inv) {e : WatcherEvent ι} (he : s.Works e) :
    ((s.step e).helper e.helper).rank < (s.helper e.helper).rank := by
  obtain ⟨hblocked, -⟩ | ⟨-, hmove⟩ := step_cases e hinv.isOk
  · exact absurd he hblocked
  · obtain ⟨h, hpasses, hhelper⟩ := hmove.exists_passes
    rw [hhelper, Function.update_self]
    exact hpasses.rank

/-- The other helpers stay as they are. -/
theorem helper_step_of_ne (hinv : s.Inv) {e : WatcherEvent ι} (hi : i ≠ e.helper) :
    (s.step e).helper i = s.helper i := by
  obtain ⟨-, hstep⟩ | ⟨-, hmove⟩ := step_cases e hinv.isOk
  · rw [hstep]
  · obtain ⟨h, -, hhelper⟩ := hmove.exists_passes
    rw [hhelper, Function.update_of_ne hi]

/-- **The helpers come to an end.**  Whatever their queries and dialogs do, no helper makes more
than 26 steps, and while one of them is in a slot or in its destructor, there is a statement that
is not blocked. -/
theorem helpers_end (es : List (WatcherEvent ι)) (hworks : Runs.Along step Works new es) :
    (∀ i, es.countP (fun e => e.helper = i) ≤ 26)
      ∧ ∀ i, ((Runs.run step new es).helper i).place.rests = false →
        ∃ j, (Runs.run step new es).Works (.statement j) := by
  have hall : Runs.Along step (fun s e => s.Inv ∧ s.Works e) new es :=
    Runs.along_of_invariant (fun s e hinv _ => hinv.step e) (fun s e hinv he => ⟨hinv, he⟩) inv_new hworks
  refine ⟨fun i => ?_, fun i hi => (inv_run es).exists_works hi⟩
  have hlt : ∀ (s : QueryWatchers ι) (e : WatcherEvent ι), s.Inv ∧ s.Works e →
      decide (e.helper = i) = true → ((s.step e).helper i).rank < (s.helper i).rank := by
    intro s e he hi
    obtain rfl : e.helper = i := of_decide_eq_true hi
    exact rank_step_lt he.1 he.2
  refine hall.countP_le (fun s => (s.helper i).rank) (fun s e he => ?_) hlt
  by_cases hi : i = e.helper
  · exact Nat.le_of_lt (hlt s e he (decide_eq_true hi.symm))
  · exact Nat.le_of_eq (congrArg WatcherHelper.rank (helper_step_of_ne he.1 hi))

theorem helpers_end_notFound :
    (∀ i, notFound.countP (fun e => e.helper = i) ≤ 26)
      ∧ ∀ i, ((Runs.run step new notFound).helper i).place.rests = false →
        ∃ j, (Runs.run step new notFound).Works (.statement j) :=
  helpers_end notFound ⟨rfl, rfl, rfl, trivial, trivial, trivial, trivial, rfl, trivial, trivial, rfl,
    trivial, trivial, trivial⟩

end QueryWatchers

end Sqlate
