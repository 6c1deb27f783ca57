import JobShell.Process.Launch
import JobShell.Process.Status

/-!
# Hosts

What the shell asks of the system that it runs on.

A `Host` is any type of states with these operations. Nothing is asked about how they behave: what
is shown about the shell for every host holds whatever its children do and whichever signals arrive.
-/

namespace JobShell

/-- The system around a shell. -/
class Host (σ : Type) where
  /-- Writes to the stream of the shell, and tells whether all bytes were taken. -/
  write : σ → List UInt8 → σ × Bool
  /-- Reads once from the input of the shell; nothing is read at its end. -/
  read : σ → σ × List UInt8
  /-- The files. -/
  files : σ → FileTree
  /-- Changes the files. -/
  withFiles : σ → FileTree → σ
  /-- Starts a child, in a process group of its own, or tells why that is not possible. -/
  fork : σ → Launch → σ × Except Reason Int
  /-- Sends a signal to a process. -/
  send : σ → Int → Nat → σ
  /-- Sends a signal to a process group, and tells why it could not be sent. -/
  sendGroup : σ → Int → Nat → σ × Option Reason
  /-- Hands out a change of a child, if there is one; a child that has ended is then forgotten. -/
  collect : σ → σ × Option ChildStatus
  /-- The signals that wait for the shell, lowest first. -/
  pending : σ → List Nat
  /-- A signal is taken by the shell and waits no more. -/
  take : σ → Nat → σ
  /-- Waits until a signal arrives that a mask does not block. -/
  sleep : σ → Mask → σ
  /-- Goes on without time passing, at most until a signal arrives that a mask does not block. -/
  pass : σ → Mask → σ

end JobShell
