import Mathlib.Logic.Relation
import Mathlib.Order.Nat

/-!
# Trees given by parent keys

A tree whose nodes carry a key, the key of their parent and a level.  `LevelTree` asks that
keys tell nodes apart, that every node but the root has its parent in the tree, one level below
it, and that no node is the root's parent.  This is how a tree looks to a program that follows
parent references: there is no list of children, and a reference may lead out of the tree.

Two facts are all such a program needs.  A node found under the parent key of another is its
parent, one level below (`level_of_key_eq_parentKey`), and no node is below the root
(`root_level_le`).  A program that climbs to a given ancestor also needs that each node has one
parent: the ancestors of a node are its parent and the ancestors of its parent
(`ancestor_of_parent`).
-/

/-- A tree of nodes of type `N`, referred to by keys of type `K`. -/
structure LevelTree {N K : Type*} (key parentKey : N → K) (level : N → ℕ) where
  Mem : N → Prop
  root : N
  root_mem : Mem root
  key_inj : ∀ {a b}, Mem a → Mem b → key a = key b → a = b
  parent_mem : ∀ {a}, Mem a → a ≠ root → ∃ p, Mem p ∧ key p = parentKey a ∧ level a = level p + 1
  root_parent : ∀ {a}, Mem a → key a ≠ parentKey root

namespace LevelTree

variable {N K : Type*} {key parentKey : N → K} {level : N → ℕ}
  (tree : LevelTree key parentKey level)

lemma level_of_key_eq_parentKey {a p : N} (ha : tree.Mem a) (hp : tree.Mem p)
    (hkey : key p = parentKey a) : level a = level p + 1 := by
  have hne : a ≠ tree.root := by
    rintro rfl
    exact tree.root_parent hp hkey
  obtain ⟨q, hq, hqkey, hlevel⟩ := tree.parent_mem ha hne
  rw [tree.key_inj hp hq (hkey.trans hqkey.symm)]
  exact hlevel

lemma root_level_le {a : N} (ha : tree.Mem a) : level tree.root ≤ level a := by
  induction hn : level a using Nat.strongRecOn generalizing a with
  | ind n ih =>
      by_cases hroot : a = tree.root
      · rw [← hroot]
        omega
      · obtain ⟨p, hp, -, hlevel⟩ := tree.parent_mem ha hroot
        have hlt : level p < n := by omega
        have hle := ih (level p) hlt hp rfl
        omega

lemma eq_root_of_parent_not_mem {a : N} (ha : tree.Mem a)
    (hparent : ∀ p, tree.Mem p → key p ≠ parentKey a) : a = tree.root := by
  by_contra hne
  obtain ⟨p, hp, hkey, -⟩ := tree.parent_mem ha hne
  exact hparent p hp hkey

/-! ## Ancestors -/

/-- `p` is the parent of `c`. -/
def Parent (p c : N) : Prop := tree.Mem p ∧ key p = parentKey c

def Ancestor (a c : N) : Prop := Relation.TransGen tree.Parent a c

/-- An ancestor is the parent, or an ancestor of the parent. -/
lemma ancestor_of_parent {a p c : N} (h : tree.Ancestor a c) (hp : tree.Parent p c) :
    a = p ∨ tree.Ancestor a p := by
  obtain ⟨q, haq, hq⟩ := Relation.TransGen.tail'_iff.mp h
  obtain rfl : q = p := tree.key_inj hq.1 hp.1 (hq.2.trans hp.2.symm)
  rcases Relation.reflTransGen_iff_eq_or_transGen.mp haq with heq | hanc
  · exact Or.inl heq.symm
  · exact Or.inr hanc

lemma Ancestor.level_lt {a c : N} (h : tree.Ancestor a c) (hc : tree.Mem c) :
    level a < level c := by
  induction h with
  | single hp =>
      have hlevel := tree.level_of_key_eq_parentKey hc hp.1 hp.2
      omega
  | tail _ hp ih =>
      have hlevel := tree.level_of_key_eq_parentKey hc hp.1 hp.2
      have hlt := ih hp.1
      omega

end LevelTree
