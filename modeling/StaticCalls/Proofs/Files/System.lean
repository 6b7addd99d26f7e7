import StaticCalls.Files.System

/-! File systems with a state: programs that run on them step by step, and what may be relied on. -/
namespace StaticCalls
variable {σ ε α β : Type} {s s' : σ}

theorem run_bind_eq {x : StateM σ α} {a : α} (h : x.run s = (a, s')) (f : α → StateM σ β) :
    (x >>= f).run s = (f a).run s' := by
  rw [StateT.run_bind, h]
  rfl

theorem run_bind_ok {x : ExceptT ε (StateM σ) α} {a : α} (h : x.run.run s = (.ok a, s'))
    (f : α → ExceptT ε (StateM σ) β) : (x >>= f).run.run s = (f a).run.run s' := by
  rw [ExceptT.run_bind, run_bind_eq h]

theorem run_bind_error {x : ExceptT ε (StateM σ) α} {e : ε} (h : x.run.run s = (.error e, s'))
    (f : α → ExceptT ε (StateM σ) β) : (x >>= f).run.run s = (.error e, s') := by
  rw [ExceptT.run_bind, run_bind_eq h]
  rfl

/-- A step of the state monad does not fail. -/
theorem run_lift_eq {x : StateM σ α} {a : α} (h : x.run s = (a, s')) :
    ((liftM x : ExceptT ε (StateM σ) α)).run.run s = (.ok a, s') := by
  show (x >>= fun a => pure (Except.ok a) : StateM σ _).run s = _
  rw [run_bind_eq h]
  rfl

namespace FileSystem

/-- What is written under a path is there and is read, when nothing comes between. -/
def ReadsBack (fs : FileSystem (StateM σ)) : Prop :=
  ∀ path octets s s', (fs.write path octets).run s = (.ok (), s') →
    (fs.isThere path).run s' = (true, s') ∧ (fs.read path).run s' = (.ok octets, s')

/-- Asking whether something is there, and reading it, change nothing. -/
structure Passive (fs : FileSystem (StateM σ)) : Prop where
  isThere : ∀ path s, ((fs.isThere path).run s).2 = s
  read : ∀ path s, ((fs.read path).run s).2 = s

namespace Passive
variable {fs : FileSystem (StateM σ)}

theorem run_isThere (h : fs.Passive) (path : String) (s : σ) :
    (fs.isThere path).run s = (((fs.isThere path).run s).1, s) :=
  Prod.ext rfl (h.isThere path s)

theorem run_read (h : fs.Passive) (path : String) (s : σ) :
    (fs.read path).run s = (((fs.read path).run s).1, s) :=
  Prod.ext rfl (h.read path s)

end Passive
end FileSystem
end StaticCalls
