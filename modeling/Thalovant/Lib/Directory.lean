import Mathlib.Logic.Function.Basic

/-!
# A directory of files

Names lead to files, and files hold the bytes that were written to them. A name is made, linked, moved
or removed whole; a file is written to bit by bit. A file that is made is under no other name, since
every name leads to a file that there is already.
-/

/-- What a name leads to. -/
inductive Entry where
  | absent
  /-- Something that is not a file. -/
  | irregular
  | file (node : Nat)
  deriving DecidableEq

/-- A file, and whether only its owner may read it. -/
structure FileNode (β : Type) where
  content : List β
  secure : Bool

structure Directory (N β : Type) where
  entry : N → Entry
  node : Nat → FileNode β
  /-- How many files there have been. -/
  made : Nat
  known : ∀ name n, entry name = .file n → n < made

namespace Directory

variable {N β : Type} {name other : N} {d d' d'' : Directory N β}

/-! ## What stays -/

/-- What is under a name is the same. -/
structure Same (name : N) (d d' : Directory N β) : Prop where
  entry : d'.entry name = d.entry name
  node : ∀ n, d.entry name = .file n → d'.node n = d.node n

theorem Same.refl (name : N) (d : Directory N β) : Same name d d := ⟨rfl, fun _ _ => rfl⟩

theorem Same.trans (h : Same name d d') (h' : Same name d' d'') : Same name d d'' where
  entry := h'.entry.trans h.entry
  node n hn := (h'.node n (h.entry.trans hn)).trans (h.node n hn)

/-! ## Writing -/

/-- More is written to a file. -/
def append (n : Nat) (bytes : List β) (d : Directory N β) : Directory N β :=
  { d with node := Function.update d.node n ⟨(d.node n).content ++ bytes, (d.node n).secure⟩ }

theorem same_append {n : Nat} (bytes : List β) (hn : d.entry name ≠ .file n) :
    Same name d (d.append n bytes) where
  entry := rfl
  node m hm := Function.update_of_ne (fun heq : m = n => hn (heq ▸ hm)) _ _

theorem node_append (n : Nat) (bytes : List β) :
    (d.append n bytes).node n = ⟨(d.node n).content ++ bytes, (d.node n).secure⟩ :=
  Function.update_self _ _ _

/-! ## Names -/

variable [DecidableEq N]

/-- A name is made for a new file, which is empty. -/
def create (name : N) (d : Directory N β) : Directory N β where
  entry := Function.update d.entry name (.file d.made)
  node := Function.update d.node d.made ⟨[], true⟩
  made := d.made + 1
  known other n h := by
    by_cases hother : other = name
    · rw [hother, Function.update_self] at h
      cases h
      exact Nat.lt_succ_self _
    · rw [Function.update_of_ne hother] at h
      exact Nat.lt_succ_of_lt (d.known other n h)

/-- A second name for a file. -/
def link (source target : N) (d : Directory N β) : Directory N β where
  entry := Function.update d.entry target (d.entry source)
  node := d.node
  made := d.made
  known name n h := by
    by_cases hname : name = target
    · rw [hname, Function.update_self] at h
      exact d.known source n h
    · rw [Function.update_of_ne hname] at h
      exact d.known name n h

def remove (name : N) (d : Directory N β) : Directory N β where
  entry := Function.update d.entry name .absent
  node := d.node
  made := d.made
  known other n h := by
    by_cases hother : other = name
    · rw [hother, Function.update_self] at h
      cases h
    · rw [Function.update_of_ne hother] at h
      exact d.known other n h

/-- A file takes another name, in place of what was under it. -/
def rename (source target : N) (d : Directory N β) : Directory N β := (d.link source target).remove source

theorem same_create (hne : name ≠ other) : Same name d (d.create other) where
  entry := Function.update_of_ne hne _ _
  node n hn := Function.update_of_ne (Nat.ne_of_lt (d.known name n hn)) _ _

theorem same_link {source target : N} (hne : name ≠ target) : Same name d (d.link source target) where
  entry := Function.update_of_ne hne _ _
  node _ _ := rfl

theorem same_remove (hne : name ≠ other) : Same name d (d.remove other) where
  entry := Function.update_of_ne hne _ _
  node _ _ := rfl

theorem same_rename {source target : N} (hsource : name ≠ source) (htarget : name ≠ target) :
    Same name d (d.rename source target) := (same_link htarget).trans (same_remove hsource)

theorem entry_create : (d.create name).entry name = .file d.made := Function.update_self _ _ _

theorem node_create : (d.create name).node d.made = ⟨[], true⟩ := Function.update_self _ _ _

theorem entry_link (source target : N) : (d.link source target).entry target = d.entry source :=
  Function.update_self _ _ _

theorem entry_rename {source target : N} (hne : target ≠ source) :
    (d.rename source target).entry target = d.entry source :=
  (Function.update_of_ne hne _ _).trans (entry_link source target)

/-- A new file is under no name that led to another. -/
theorem entry_create_ne (hne : name ≠ other) : (d.create other).entry name ≠ .file d.made := by
  intro h
  rw [(same_create hne).entry] at h
  exact Nat.lt_irrefl _ (d.known name _ h)

end Directory
