/-
The steps that commands are made of, run on a machine.
-/
import Depot.CommandLine.Run
import Depot.Proofs.Steps

namespace Depot.CommandLine

open Work

theorem run_readFile (path : String) (m : Machine) :
    (readFile path).run.run m = (.ok (m.readFile path), m) := rfl

theorem run_lift {ε α : Type} (failure : ε → Failure) (result : Except ε α) (m : Machine) :
    (lift failure result).run.run m = (result.mapError failure, m) := rfl

theorem run_openStore (config : Config) (m : Machine) :
    (openStore config).run.run m = ((m.openStore config.serverDir).2.mapError (.fetch ∘ .store),
      (m.openStore config.serverDir).1) := rfl

theorem run_commit (mounted : Machine.Mounted) (tx : Transaction) (m : Machine) :
    (commit mounted tx).run.run m
      = ((tx.commit mounted.store).2.2.mapError (.fetch ∘ .store),
        m.keep { mounted with store := (tx.commit mounted.store).1 }) := rfl

/-- A result of the store is passed on. -/
theorem run_ofStore {α : Type} {result : Except StoreError α} {a : α} (h : result = .ok a)
    (m : Machine) : (ofStore result).run.run m = (.ok a, m) := by
  rw [h]
  rfl

end Depot.CommandLine
