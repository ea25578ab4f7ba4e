namespace TrustRoles

structure Interface where
  Call : Type
  Reply : Call → Type

inductive Interaction (I : Interface) (α : Type) where
  | done (a : α)
  | call (c : I.Call) (next : I.Reply c → Interaction I α)

namespace Interaction

variable {I : Interface} {α β : Type}

def bind : Interaction I α → (α → Interaction I β) → Interaction I β
  | done a, f => f a
  | call c next, f => call c fun r => (next r).bind f

instance : Monad (Interaction I) where
  pure := done
  bind := bind

def perform (c : I.Call) : Interaction I (I.Reply c) :=
  call c done

def interpret {m : Type → Type} [Monad m] (serve : (c : I.Call) → m (I.Reply c)) :
    Interaction I α → m α
  | done a => pure a
  | call c next => do
      let r ← serve c
      interpret serve (next r)

@[simp] theorem pure_eq (a : α) : (pure a : Interaction I α) = done a := rfl

@[simp] theorem done_bind (a : α) (f : α → Interaction I β) : (done a >>= f) = f a := rfl

@[simp] theorem call_bind (c : I.Call) (next : I.Reply c → Interaction I α)
    (f : α → Interaction I β) : (call c next >>= f) = call c fun r => next r >>= f := rfl

@[simp] theorem perform_bind (c : I.Call) (f : I.Reply c → Interaction I β) :
    (perform c >>= f) = call c f := rfl

theorem bind_done (x : Interaction I α) : x.bind done = x := by
  induction x with
  | done a => rfl
  | call c next ih => exact congrArg (call c) (funext ih)

theorem bind_assoc {γ : Type} (x : Interaction I α) (f : α → Interaction I β)
    (g : β → Interaction I γ) : (x.bind f).bind g = x.bind fun a => (f a).bind g := by
  induction x with
  | done a => rfl
  | call c next ih => exact congrArg (call c) (funext ih)

instance : LawfulMonad (Interaction I) :=
  LawfulMonad.mk' (Interaction I) bind_done (fun _ _ => rfl) bind_assoc

end Interaction

end TrustRoles
