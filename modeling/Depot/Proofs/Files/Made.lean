/-
Directories that are made along any path, steps upwards included. What is
made are directories in directories (`built_makeDirsFrom`); once it is
made, making it again makes nothing, and what was refused is refused again
(`makeDirs_again`).
-/
import Depot.Proofs.Files.Nested

namespace Depot.Files.Tree

variable {t t' : Tree} {place : Place} {pieces : List String}

/-- A tree with directories made in it, each in a directory where nothing
was, under a name that is not too long. -/
def Built (t t' : Tree) : Prop := ∀ q, t'.node? q = t.node? q
  ∨ (t.node? q = none ∧ t'.node? q = some .dir
      ∧ ∃ above name, q = above ++ [name] ∧ name.utf8ByteSize ≤ maxName
        ∧ t'.node? above = some .dir)

namespace Built

theorem refl (t : Tree) : Built t t := fun _ => .inl rfl

/-- What was there is there. -/
theorem kept (h : Built t t') {q : Place} {node : Node} (hq : t.node? q = some node) :
    t'.node? q = some node := by
  rcases h q with hsame | ⟨hnone, -⟩
  · rw [hsame, hq]
  · rw [hnone] at hq
    cases hq

theorem trans {t'' : Tree} (h : Built t t') (h' : Built t' t'') : Built t t'' := by
  intro q
  rcases h' q with hsame | ⟨hnone, hdir, hnew⟩
  · rcases h q with hsame' | ⟨hnone', hdir', above, name, rfl, hlen, habove⟩
    · exact .inl (hsame.trans hsame')
    · exact .inr ⟨hnone', hsame.trans hdir', above, name, rfl, hlen, h'.kept habove⟩
  · rcases h q with hsame' | ⟨-, hdir', -⟩
    · exact .inr ⟨hsame'.symm.trans hnone, hdir, hnew⟩
    · rw [hnone] at hdir'
      cases hdir'

end Built

/-- A step that is taken in a tree is taken in one with more directories. -/
theorem Built.step (h : Built t t') {piece : String} {next : Place}
    (hstep : t.step place piece = .ok next) : t'.step place piece = .ok next := by
  have hdir := dir_of_step hstep
  unfold Tree.step at hstep ⊢
  rw [if_neg (by simp [hdir])] at hstep
  rw [if_neg (by simp [h.kept hdir])]
  split at hstep
  · next hidle => rw [if_pos hidle, hstep]
  · next hidle =>
    rw [if_neg hidle]
    split at hstep
    · next hup => rw [if_pos hup, hstep]
    · next hup =>
      rw [if_neg hup]
      split at hstep
      · cases hstep
      · next hlen =>
        rw [if_neg hlen]
        split at hstep
        · next hsome =>
          obtain ⟨node, hnode⟩ := Option.isSome_iff_exists.1 hsome
          rw [if_pos (by rw [h.kept hnode]; rfl), hstep]
        · cases hstep

/-- A step upwards never leads nowhere. -/
theorem ne_up_of_notFound {piece : String} (h : t.step place piece = .error .notFound) :
    piece ≠ ".." := by
  intro hup
  subst hup
  unfold Tree.step at h
  split at h
  · cases h
  · rw [if_neg (by decide), if_pos rfl] at h
    cases h

theorem built_makeStep (t : Tree) (place : Place) (last : Bool) (piece : String) :
    Built t (makeStep last (t, place) piece).1 := by
  unfold makeStep
  dsimp only
  cases hstep : t.step place piece with
  | ok next =>
      dsimp only
      split <;> exact .refl t
  | error e =>
      cases e with
      | notFound =>
          obtain ⟨hdir, -, hlen, hnone⟩ := step_notFound hstep (ne_up_of_notFound hstep)
          intro q
          dsimp only
          rw [node?_insert (by simp)]
          by_cases hq : q = place ++ [piece]
          · subst hq
            refine .inr ⟨hnone, if_pos rfl, place, piece, rfl, hlen, ?_⟩
            rw [node?_insert (by simp), if_neg (by simp), hdir]
          · exact .inl (if_neg hq)
      | _ => exact .refl t

theorem built_makeDirsFrom (t : Tree) (place : Place) (pieces : List String) :
    Built t (t.makeDirsFrom place pieces).1 := by
  induction pieces generalizing t place with
  | nil => exact .refl t
  | cons piece rest ih =>
      have hstep := built_makeStep t place rest.isEmpty piece
      unfold makeDirsFrom
      cases hmade : makeStep rest.isEmpty (t, place) piece with
      | mk made answer =>
          rw [hmade] at hstep
          cases answer with
          | error e => exact hstep
          | ok next => exact hstep.trans (ih made next)

/-- Once made, directories are found. -/
theorem makeStep_again {piece : String} {last : Bool} {next : Place} {made : Tree}
    (h : makeStep last (t, place) piece = (made, .ok next)) (hbuilt : Built made t') :
    makeStep last (t', place) piece = (t', .ok next) := by
  obtain ⟨-, -, hstep, hlast⟩ := makeStep_ok h
  unfold makeStep
  dsimp only
  rw [hbuilt.step hstep]
  dsimp only
  rw [if_neg]
  rintro ⟨htrue, hne⟩
  exact hne (hbuilt.kept (hlast htrue))

/-- Where a step fails nothing is made. -/
theorem makeStep_error {piece : String} {last : Bool} {made : Tree} {e : OsError}
    (h : makeStep last (t, place) piece = (made, .error e)) : made = t := by
  unfold makeStep at h
  dsimp only at h
  split at h
  · split at h <;> cases h
    rfl
  · cases h
  · cases h
    rfl

/-- Making directories again makes none, and is refused as before. -/
theorem makeDirsFrom_again {answer : Except OsError Place}
    (h : t.makeDirsFrom place pieces = (t', answer)) :
    t'.makeDirsFrom place pieces = (t', answer) := by
  induction pieces generalizing t place with
  | nil =>
      cases h
      rfl
  | cons piece rest ih =>
      unfold makeDirsFrom at h ⊢
      cases hmade : makeStep rest.isEmpty (t, place) piece with
      | mk made first =>
          rw [hmade] at h
          cases first with
          | error e =>
              obtain rfl := makeStep_error hmade
              cases h
              rw [hmade]
          | ok next =>
              have hbuilt := built_makeDirsFrom made next rest
              rw [show made.makeDirsFrom next rest = (t', answer) from h] at hbuilt
              rw [makeStep_again hmade hbuilt]
              exact ih h

theorem makeDirs_again {answer : Except OsError Place} (h : t.makeDirs pieces = (t', answer)) :
    t'.makeDirs pieces = (t', answer) := makeDirsFrom_again h

/-- Along a path that leads to a directory nothing is made. -/
theorem makeDirs_of_walk {dest : Place} (h : t.walk pieces = .ok dest)
    (hdir : t.node? dest = some .dir) : t.makeDirs pieces = (t, .ok dest) := by
  have hbase : t.makeDirsFrom [] (pieces ++ []) = t.makeDirsFrom dest [] :=
    Nested.makeDirsFrom_base hdir pieces [] h
  rwa [List.append_nil] at hbase

end Depot.Files.Tree
