/-
Relpaths that are one. The relpath of a link or an upload tells its pieces
(`Origin.relpath_inj`), since none of them has a slash in it. Links have
three pieces and uploads six; shards are of three digits and thirteen, so
none of them is `+e`; and what the pieces say of a digest is its first
sixteen digits. So whether two relpaths are one is told by the parts that
they are made of (`Origin.same_relpath_iff`).
-/
import Depot.Proofs.Store.Apart

namespace Depot.Origin

variable {a b : Origin}

/-- Two are called alike: links of one name that declare digests which start
with the same sixteen digits, or declare none and lead through directories
that are written the same; or uploads of one name to one index, with
digests that start so. -/
def Alike : Origin → Origin → Prop
  | .mapped a, .mapped b =>
      a.basename = b.basename
        ∧ ((∃ spec spec', a.hash = some spec ∧ b.hash = some spec'
            ∧ spec.value.toList.take 16 = spec'.value.toList.take 16)
          ∨ (a.hash = none ∧ b.hash = none ∧ a.dirName = b.dirName))
  | .uploaded user index spec basename, .uploaded user' index' spec' basename' =>
      user = user' ∧ index = index' ∧ spec.value.toList.take 16 = spec'.value.toList.take 16
        ∧ basename = basename'
  | _, _ => False

/-- Shards are made of sixteen digits. -/
theorem shards_eq_iff_take {spec spec' : HashSpec} : spec.shards.1 = spec'.shards.1
    ∧ spec.shards.2 = spec'.shards.2
    ↔ spec.value.toList.take 16 = spec'.value.toList.take 16 := by
  rw [← Prod.ext_iff]
  exact Relpath.shards_eq_iff

/-- No upload is made of the pieces of a link. -/
theorem pieces_ne (link : Link) (user index : String) (spec : HashSpec) (basename : String) :
    (mapped link).pieces ≠ (uploaded user index spec basename).pieces := by
  intro h
  have hlen := congrArg List.length h
  unfold pieces at hlen
  cases hhash : link.hash <;> simp [hhash] at hlen

/-- The pieces are the same just for those that are called alike. -/
theorem pieces_eq_iff (ha : a.Sound) (hb : b.Sound) : a.pieces = b.pieces ↔ a.Alike b := by
  cases a with
  | mapped a =>
      cases b with
      | mapped b =>
          unfold pieces Alike
          cases hspec : a.hash with
          | some spec =>
              have hegg := (isIdle_shards (ha.link.2 spec hspec)).2.2
              cases hspec' : b.hash with
              | some spec' => simp [hspec, hspec', ← shards_eq_iff_take, and_assoc, and_comm]
              | none => simp [hspec, hspec', hegg]
          | none =>
              cases hspec' : b.hash with
              | some spec' =>
                  have hegg := (isIdle_shards (hb.link.2 spec' hspec')).2.2
                  simp [hspec, hspec', Ne.symm hegg]
              | none => simp [hspec, hspec', and_comm]
      | uploaded user index spec basename =>
          exact iff_of_false (pieces_ne a user index spec basename) id
  | uploaded user index spec basename =>
      cases b with
      | mapped b => exact iff_of_false (pieces_ne b user index spec basename).symm id
      | uploaded user' index' spec' basename' =>
          unfold pieces Alike
          simp [← shards_eq_iff_take, and_assoc]

/-- Relpaths are one just for those that are called alike. An upload and a
link never are. -/
theorem same_relpath_iff (ha : a.Sound) (hb : b.Sound) : a.relpath = b.relpath ↔ a.Alike b :=
  (relpath_inj ha hb).trans (pieces_eq_iff ha hb)

set_option maxRecDepth 20000 in
/-- Links through directories that are written the same share a relpath, and
so do uploads with digests that start with the same sixteen digits; an
upload whose user is called like a shard and whose index is called like
another does not share that of the link. -/
theorem same_relpath_iff_joined : ∃ a b c d e : Origin,
    a.Sound ∧ b.Sound ∧ c.Sound ∧ d.Sound ∧ e.Sound
    ∧ a.relpath = "+e/h_a_b/x" ∧ b.relpath = a.relpath ∧ a ≠ b
    ∧ c.relpath = "0f5/f13cf0b14c88b/+f/0f5/f13cf0b14c88b/x" ∧ d.relpath = c.relpath ∧ c ≠ d
    ∧ e.relpath = "0f5/f13cf0b14c88b/+f" ∧ ¬ c.Alike e ∧ c.relpath ≠ e.relpath := by
  have hjoined : Link.parse "http://h/a_b/x"
      = .ok ⟨⟨"http", some { host := some "h" }, .segments ["a_b", "x"], none, none⟩,
        none, none⟩ := rfl
  have hparted : Link.parse "http://h/a/b/x"
      = .ok ⟨⟨"http", some { host := some "h" }, .segments ["a", "b", "x"], none, none⟩,
        none, none⟩ := rfl
  have hlike : Link.parse "http://h/+f#md5=0f5f13cf0b14c88bd431ef163b63d68d"
      = .ok ⟨⟨"http", some { host := some "h" }, .segments ["+f"], none,
          some "md5=0f5f13cf0b14c88bd431ef163b63d68d"⟩,
        some ⟨.md5, "0f5f13cf0b14c88bd431ef163b63d68d"⟩, none⟩ := rfl
  have hspec : HashSpec.parse "md5=0f5f13cf0b14c88bd431ef163b63d68d"
      = .ok ⟨.md5, "0f5f13cf0b14c88bd431ef163b63d68d"⟩ := rfl
  have hspec' : HashSpec.parse "sha256=0f5f13cf0b14c88b"
      = .ok ⟨.sha256, "0f5f13cf0b14c88b"⟩ := rfl
  have hupload : Sound (.uploaded "0f5" "f13cf0b14c88b"
      ⟨.md5, "0f5f13cf0b14c88bd431ef163b63d68d"⟩ "x") := .upload (by decide) (.inl ⟨_, hspec⟩)
  have hshort : Sound (.uploaded "0f5" "f13cf0b14c88b" ⟨.sha256, "0f5f13cf0b14c88b"⟩ "x") :=
    .upload (by decide) (.inl ⟨_, hspec'⟩)
  exact ⟨_, _, _, _, _, .read hjoined, .read hparted, hupload, hshort, .read hlike, rfl,
    (same_relpath_iff (.read hparted) (.read hjoined)).2 ⟨rfl, .inr ⟨rfl, rfl, rfl⟩⟩,
    fun heq => absurd (mapped.inj heq) (by decide), rfl,
    (same_relpath_iff hshort hupload).2 ⟨rfl, rfl, rfl, rfl⟩,
    fun heq => absurd (uploaded.inj heq).2.2.1 (by decide), rfl, id,
    (same_relpath_iff hupload (.read hlike)).1⟩

end Depot.Origin
