import Schemata.Diagnostics

/-!
# Reports that nobody reads

Where reports are dropped, a reported operation does nothing but return what
the operation without reports gives.  This holds in every lawful monad, so what
is shown of results carries over to runs that make choices on the way.
-/

namespace Schemata

/-- Reports are dropped. -/
class SilentReport (m : Type → Type) [Monad m] [MonadReport m] : Prop where
  report_eq (e : Event) : (report e : m Unit) = pure ()

export SilentReport (report_eq)

instance : SilentReport Id where
  report_eq _ := rfl

section Transformers

variable {m : Type → Type} [Monad m] [LawfulMonad m] [MonadReport m]
  [SilentReport m]

instance {σ : Type} : SilentReport (StateT σ m) where
  report_eq e := by
    have hlift : (report e : StateT σ m Unit) = StateT.lift (report e) := rfl
    rw [hlift, report_eq]
    ext s
    simp

instance {ε : Type} : SilentReport (ExceptT ε m) where
  report_eq e := by
    have hlift : (report e : ExceptT ε m Unit) = ExceptT.lift (report e) := rfl
    rw [hlift, report_eq]
    ext
    simp

theorem Schema.resolveM_eq (root : Option Schema) (path : Path) :
    (Schema.resolveM root path : m _) = pure (Schema.resolve root path) := by
  cases root with
  | none => rfl
  | some root =>
      simp only [resolveM, resolve, dereferenceM, report_eq, pure_bind]
      cases root.dereference (elementPath path) <;> rfl

end Transformers

end Schemata
