import QueryExec.Row

/-!
Where the bindings of a cursor tree come from: one binding for each opening, or a fixed list.
-/

namespace QueryExec

inductive SingleState
  | closed
  | pending
  | exhausted
deriving DecidableEq, Repr

inductive BindingSource
  | single (bindings : Bindings) (state : SingleState)
  | several (all pending : List Bindings)

namespace BindingSource

def ofOne (bindings : Bindings) : BindingSource :=
  single bindings .closed

def ofList (all : List Bindings) : BindingSource :=
  several all []

/-- The bindings that are still to be delivered, in order. -/
def pending : BindingSource → List Bindings
  | single bindings .pending => [bindings]
  | single _ _ => []
  | several _ pending => pending

def openAll : BindingSource → BindingSource
  | single bindings _ => single bindings .pending
  | several all _ => several all all

/-- Delivers the first pending binding, if there is one. -/
def next : BindingSource → Option Bindings × BindingSource
  | single bindings .pending => (some bindings, single bindings .exhausted)
  | several all (first :: rest) => (some first, several all rest)
  | other => (none, other)

def close : BindingSource → BindingSource
  | single bindings _ => single bindings .closed
  | several all _ => several all []

/-- Discards what is pending and nested under a binding. -/
def cancel (cancelled : Bindings) : BindingSource → BindingSource
  | single bindings state =>
      if cancelled.covers bindings then single bindings .exhausted else single bindings state
  | several all pending => several all (pending.filter fun bindings => !cancelled.covers bindings)

theorem pending_open_all (all before : List Bindings) :
    (several all before).openAll.pending = all :=
  rfl

theorem pending_close (source : BindingSource) : source.close.pending = [] := by
  cases source <;> rfl

theorem pending_next (source : BindingSource) :
    source.next.1 = source.pending.head? ∧ source.next.2.pending = source.pending.tail := by
  rcases source with ⟨bindings, state⟩ | ⟨all, pending⟩
  · cases state <;> exact ⟨rfl, rfl⟩
  · cases pending <;> exact ⟨rfl, rfl⟩

theorem pending_cancel (cancelled : Bindings) (source : BindingSource) :
    (source.cancel cancelled).pending =
      source.pending.filter fun bindings => !cancelled.covers bindings := by
  rcases source with ⟨bindings, state⟩ | ⟨all, pending⟩
  · by_cases covered : cancelled.covers bindings = true
    · cases state <;> simp [cancel, BindingSource.pending, covered]
    · cases state <;> simp [cancel, BindingSource.pending, covered]
  · rfl

end BindingSource

end QueryExec
