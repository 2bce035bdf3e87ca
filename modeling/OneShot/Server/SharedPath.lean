import OneShot.Server.SocketFile

/-! # Servers that share a path

Several servers take the same path and leave it, each a step at a time and in any order. A server
removes what is at the path twice, without a look at whose it is: what it has found there when it
starts, and whatever is there when it goes.

* `SharedPath.step`          one step of one of the servers
* `SharedPath.run`           steps one after the other
* `SharedPath.undisturbed`   whether no server removes anything meanwhile
-/

namespace OneShot

/-- Whether the next step of a server removes what is at its path. -/
def Tenure.isRemoving : Tenure → Bool
  | clearing => true
  | leaving => true
  | _ => false

/-- Servers that share a path, by their numbers as listeners, and the files around them. -/
structure SharedPath where
  files : FileSystem
  tenure : Nat → Tenure

namespace SharedPath

/-- A step of one of the servers. -/
inductive Turn where
  | advance (listener : Nat)
  /-- A server is told to stop, and listens no more. -/
  | withdraw (listener : Nat)

/-- None of the servers has started yet. -/
def start (files : FileSystem) : SharedPath := { files, tenure := fun _ => .looking }

/-- How far one of the servers has come, and what it has made of the files. -/
def bring (w : SharedPath) (k : Nat) (next : Tenure × FileSystem) : SharedPath :=
  { files := next.2, tenure := fun i => if i = k then next.1 else w.tenure i }

/-- One step. -/
def step (path : Bytes) (w : SharedPath) : Turn → SharedPath
  | .advance k => w.bring k (Tenure.advance k path (w.tenure k, w.files))
  | .withdraw k => w.bring k (Tenure.withdraw k (w.tenure k, w.files))

/-- Steps one after the other. -/
def run (path : Bytes) (w : SharedPath) (turns : List Turn) : SharedPath :=
  turns.foldl (step path) w

/-- Whether a step is to remove what is at the path. -/
def removes (w : SharedPath) : Turn → Bool
  | .advance k => (w.tenure k).isRemoving
  | .withdraw _ => false

/-- Whether nothing is to be removed in any of the steps. -/
def undisturbed (path : Bytes) (w : SharedPath) : List Turn → Bool
  | [] => true
  | turn :: rest => !w.removes turn && undisturbed path (w.step path turn) rest

section

variable (w : SharedPath) (k : Nat) (next : Tenure × FileSystem) {i : Nat}

@[simp] theorem bring_files : (w.bring k next).files = next.2 := rfl

@[simp] theorem bring_tenure_self : (w.bring k next).tenure k = next.1 := if_pos rfl

@[simp] theorem bring_tenure_of_ne (h : i ≠ k) : (w.bring k next).tenure i = w.tenure i := if_neg h

end

section

variable (path : Bytes) (w : SharedPath) (turns : List Turn) (turn : Turn)

@[simp] theorem run_nil : w.run path [] = w := rfl

theorem run_append (first rest : List Turn) :
    w.run path (first ++ rest) = (w.run path first).run path rest := List.foldl_append

theorem run_concat : w.run path (turns ++ [turn]) = (w.run path turns).step path turn := by
  rw [run_append]
  rfl

theorem undisturbed_concat :
    w.undisturbed path (turns ++ [turn]) =
      (w.undisturbed path turns && !(w.run path turns).removes turn) := by
  induction turns generalizing w with
  | nil => simp [undisturbed]
  | cons first turns ih => simp [undisturbed, ih, run, Bool.and_assoc]

end

end SharedPath

end OneShot
