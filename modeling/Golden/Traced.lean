/-!
# Golden.Traced — a value together with what happened on the way to it

Reading a line can meet an I/O failure, an alignment meets its first mismatch at a certain point,
and all of it is reported in the order in which it happened.  `Traced ε α` is a value of `α` beside
the list of events of type `ε` that led to it.  Sequencing two traced steps appends their events;
nothing ever inspects, drops or reorders them.

The two projections commute with the monad operations by definition (`value_bind`, `events_bind`),
so a statement about the values alone never mentions an event, and the other way round.  The monad
laws hold because appending lists is associative.
-/

namespace Golden

/-- A value and the events met while computing it, oldest first. -/
@[ext]
structure Traced (ε α : Type) where
  value : α
  events : List ε

namespace Traced

variable {ε α β : Type}

instance : Monad (Traced ε) where
  pure a := ⟨a, []⟩
  bind x f := ⟨(f x.value).value, x.events ++ (f x.value).events⟩

/-- A step that does nothing but report `e`. -/
def report (e : ε) : Traced ε Unit := ⟨(), [e]⟩

@[simp] theorem value_pure (a : α) : (pure a : Traced ε α).value = a := rfl
@[simp] theorem events_pure (a : α) : (pure a : Traced ε α).events = [] := rfl

@[simp] theorem value_bind (x : Traced ε α) (f : α → Traced ε β) :
    (x >>= f).value = (f x.value).value := rfl

@[simp] theorem events_bind (x : Traced ε α) (f : α → Traced ε β) :
    (x >>= f).events = x.events ++ (f x.value).events := rfl

/-- What comes behind a step depends on its value alone. -/
theorem bind_eq (x : Traced ε α) (f : α → Traced ε β) :
    x >>= f = (⟨(), x.events⟩ : Traced ε Unit) >>= fun _ => f x.value := rfl

@[simp] theorem value_map (f : α → β) (x : Traced ε α) : (f <$> x).value = f x.value := rfl

@[simp] theorem events_map (f : α → β) (x : Traced ε α) : (f <$> x).events = x.events :=
  List.append_nil x.events

@[simp] theorem events_report (e : ε) : (report e).events = [e] := rfl

instance : LawfulMonad (Traced ε) :=
  .mk' (Traced ε) (fun x => congrArg (Traced.mk x.value) (List.append_nil x.events))
    (fun _ _ => rfl) (fun x _ _ => congrArg (Traced.mk _) (List.append_assoc x.events _ _))

end Traced

end Golden
