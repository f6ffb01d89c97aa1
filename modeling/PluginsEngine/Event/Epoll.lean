/-
  File:      PluginsEngine/Event/Epoll.lean
  Subject:   THE KERNEL'S SIDE OF EPOLL, and class Epoll over it (event/epoll.hpp, epoll.cpp).

  The kernel is outside the repository. `Kernel` holds what epoll_ctl(2) documents of it: the open
  descriptors (each refers to a file that supports epoll, or to one that does not, as a regular
  file), the interest list of one epoll instance, and the number of watches it admits
  (/proc/sys/fs/epoll/max_user_watches). A descriptor has one open file description of its own, so
  closing it takes it out of the interest list.
-/
import PluginsEngine.Library.FiniteMap
import PluginsEngine.Event.Event

namespace PluginsEngine

/-- Whether the file behind a descriptor supports epoll. -/
inductive FileKind where
  | pollable
  | unpollable
  deriving DecidableEq, Repr

structure Kernel where
  files : Finmap fun _ : Int => FileKind
  interest : Finmap fun _ : Int => Mask
  maxWatches : Nat
  deriving DecidableEq

/-- The operations of epoll_ctl(2). -/
inductive CtlOp where
  | add
  | mod
  | del
  deriving DecidableEq, Repr

namespace Kernel

/-- **When EPOLL_CTL_ADD of a descriptor is accepted**: it is open (else EBADF), not in the
    interest list (EEXIST), its file supports epoll (EPERM), and a watch is left (ENOSPC). -/
def accepts (k : Kernel) (fd : Int) : Prop :=
  k.files.lookup fd = some .pollable ∧ fd ∉ k.interest ∧ k.interest.keys.card < k.maxWatches

instance (k : Kernel) (fd : Int) : Decidable (k.accepts fd) :=
  inferInstanceAs (Decidable (_ ∧ _))

/-- `epoll_ctl(epollFd, operation, fd, {events, fd})` and whether it returned 0. EPOLL_CTL_MOD and
    EPOLL_CTL_DEL need an entry of the interest list (else ENOENT). -/
def epollCtl (k : Kernel) (operation : CtlOp) (fd : Int) (events : Mask) : Kernel × Bool :=
  match operation with
  | .add =>
    if k.accepts fd then ({ k with interest := k.interest.insert fd events }, true)
    else (k, false)
  | .mod =>
    if fd ∈ k.interest then ({ k with interest := k.interest.insert fd events }, true)
    else (k, false)
  | .del =>
    if fd ∈ k.interest then ({ k with interest := k.interest.erase fd }, true) else (k, false)

/-- A descriptor `fd` comes into being. -/
def openFile (k : Kernel) (fd : Int) (kind : FileKind) : Kernel :=
  { k with files := k.files.insert fd kind }

/-- `close(fd)`. -/
def closeFile (k : Kernel) (fd : Int) : Kernel :=
  { k with files := k.files.erase fd, interest := k.interest.erase fd }

end Kernel

/-- One record of epoll_wait(2): `data.fd` and the reported flags. -/
structure EpollEvent where
  fd : Int
  events : Mask
  deriving DecidableEq, Repr

namespace Epoll

variable {κ : Type}

def addEvent (k : Kernel) (event : Event κ) : Kernel × Bool :=
  k.epollCtl .add event.eventFd event.events

def removeEvent (k : Kernel) (event : Event κ) : Kernel × Bool :=
  k.epollCtl .del event.eventFd event.events

def removeEventFd (k : Kernel) (fd : Int) : Kernel × Bool :=
  k.epollCtl .del fd 0

def modifyEvent (k : Kernel) (event : Event κ) : Kernel × Bool :=
  k.epollCtl .mod event.eventFd event.events

end Epoll

/-! ## What each call leaves in the interest list -/

namespace Kernel

/-- The epoll calls open and close nothing. -/
@[simp] theorem epollCtl_files (k : Kernel) (op : CtlOp) (fd : Int) (m : Mask) :
    (k.epollCtl op fd m).1.files = k.files := by
  unfold epollCtl
  cases op with
  | add | mod | del =>
    dsimp only
    split <;> rfl

theorem add_interest (k : Kernel) (fd : Int) (m : Mask) :
    (k.epollCtl .add fd m).1.interest =
      if k.accepts fd then k.interest.insert fd m else k.interest := by
  simp only [epollCtl]
  split <;> rfl

theorem mod_interest (k : Kernel) (fd : Int) (m : Mask) :
    (k.epollCtl .mod fd m).1.interest =
      if fd ∈ k.interest then k.interest.insert fd m else k.interest := by
  simp only [epollCtl]
  split <;> rfl

/-- EPOLL_CTL_DEL leaves the list without the descriptor, whether it was in it or not. -/
theorem del_interest (k : Kernel) (fd : Int) (m : Mask) :
    (k.epollCtl .del fd m).1.interest = k.interest.erase fd := by
  simp only [epollCtl]
  by_cases h : fd ∈ k.interest
  · simp only [if_pos h]
  · simp only [if_neg h]
    exact (Library.erase_of_notMem h).symm

end Kernel

end PluginsEngine
