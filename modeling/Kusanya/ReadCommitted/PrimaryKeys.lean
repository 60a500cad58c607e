import Kusanya.ReadCommitted.Locking

/-!
# Primary keys, and disciplines side by side

A row is inserted under a primary key that its transaction has locked and found free; nothing else
changes the keys of the tables.  Then the keys are unique in every committed state, whatever
generated them.  Programs that keep to two disciplines keep to both at once.
-/

namespace ReadCommitted

variable {S K E V α β : Type}

/-! ## Two disciplines -/

/-- The discipline that promises nothing. -/
def Discipline.free : Discipline S K where
  inv _ := True
  evolves _ _ := True
  keeps _ _ _ := True
  evolves_refl _ := trivial
  evolves_trans _ _ := trivial
  keeps_refl _ _ := trivial
  keeps_trans _ _ := trivial

/-- What both disciplines promise. -/
def Discipline.and (D D' : Discipline S K) : Discipline S K where
  inv s := D.inv s ∧ D'.inv s
  evolves s t := D.evolves s t ∧ D'.evolves s t
  keeps k s t := D.keeps k s t ∧ D'.keeps k s t
  evolves_refl s := ⟨D.evolves_refl s, D'.evolves_refl s⟩
  evolves_trans h h' := ⟨D.evolves_trans h.1 h'.1, D'.evolves_trans h.2 h'.2⟩
  keeps_refl k s := ⟨D.keeps_refl k s, D'.keeps_refl k s⟩
  keeps_trans h h' := ⟨D.keeps_trans h.1 h'.1, D'.keeps_trans h.2 h'.2⟩

section Both

variable {D D' : Discipline S K} {l : Local S K} {s : S}

theorem Local.Sees.left (h : l.Sees (D.and D') s) : l.Sees D s where
  inv := h.inv.1
  evolves := h.evolves.1
  keeps k hk := (h.keeps k hk).1

theorem Local.Sees.right (h : l.Sees (D.and D') s) : l.Sees D' s where
  inv := h.inv.2
  evolves := h.evolves.2
  keeps k hk := (h.keeps k hk).2

namespace Txn

variable [DecidableEq K] {p : Txn S K E V α} {Q Q' : α → Local S K → Prop}
variable {R R' : E → Local S K → Prop}

/-- A program that keeps to a discipline where less is promised keeps to it where more is. -/
theorem lwp_weaken {D₁ D₂ : Discipline S K}
    (hsees : ∀ (l : Local S K) (s : S), l.Sees D₂ s → l.Sees D₁ s) (h : p.lwp D₁ l Q R) :
    p.lwp D₂ l Q R := by
  induction p generalizing l with
  | ret a => exact h
  | throw e => exact h
  | read k n ih => exact fun s hs => ih (l.pend s) (h s (hsees l s hs))
  | write w n ih => exact ih h
  | lock k n ih => exact fun s hs => ih (h s (hsees l s hs))
  | release ks n ih => exact ih h
  | call v n ih => exact ih h

end Txn

end Both

/-! ## Primary keys -/

section PrimaryKeys

variable (keys : S → List K)

/-- The keys are unique, and the lock of a key that is free keeps it free. -/
def Discipline.unique : Discipline S K where
  inv s := (keys s).Nodup
  evolves _ _ := True
  keeps k s t := k ∉ keys s → k ∉ keys t
  evolves_refl _ := trivial
  evolves_trans _ _ := trivial
  keeps_refl _ _ h := h
  keeps_trans h h' hs := h' (h hs)

/-- A transaction has inserted rows under keys that are locked and free. -/
structure Inserting (l : Local S K) : Prop where
  inserted : ∃ new : List K, new.Nodup ∧ (∀ k ∈ new, k ∈ l.held ∧ k ∉ keys l.last) ∧
    ∀ s, (keys (l.pend s)).Perm (new ++ keys s)

variable {keys} {l : Local S K} {s : S}

theorem inserting_untouched (h : l.pend = id) : Inserting keys l := by
  refine ⟨[], List.nodup_nil, fun k hk => absurd hk List.not_mem_nil, fun s => ?_⟩
  rw [h]
  exact List.Perm.refl _

/-- An insert under a key that is locked and free. -/
theorem Inserting.insert (h : Inserting keys l) {k : K} (hk : k ∈ l.held)
    (hfree : k ∉ keys (l.pend l.last)) {w : S → S} (hw : ∀ s, (keys (w s)).Perm (k :: keys s)) :
    Inserting keys { l with pend := w ∘ l.pend } := by
  obtain ⟨new, hnodup, hnew, hkeys⟩ := h.inserted
  have hout : k ∉ new ++ keys l.last := fun hin => hfree ((hkeys l.last).mem_iff.mpr hin)
  rw [List.mem_append, not_or] at hout
  refine ⟨k :: new, List.nodup_cons.mpr ⟨hout.1, hnodup⟩, fun k' hk' => ?_, fun s => ?_⟩
  · rcases List.mem_cons.mp hk' with rfl | hk'
    · exact ⟨hk, hout.2⟩
    · exact hnew k' hk'
  · exact (hw (l.pend s)).trans ((hkeys s).cons k)

theorem lasting_inserting : Txn.Lasting (Discipline.unique keys) (Inserting keys) where
  sees h hs := by
    obtain ⟨new, hnodup, hnew, hkeys⟩ := h.inserted
    refine ⟨new, hnodup, fun k hk => ?_, hkeys⟩
    obtain ⟨hheld, hfree⟩ := hnew k hk
    exact ⟨hheld, hs.keeps k hheld hfree⟩
  locked h hheld := by
    obtain ⟨new, hnodup, hnew, hkeys⟩ := h.inserted
    exact ⟨new, hnodup, fun k hk => ⟨hheld k (hnew k hk).1, (hnew k hk).2⟩, hkeys⟩

/-- At the commit the keys are unique, and only locked ones are taken. -/
theorem Inserting.commit (h : Inserting keys l) (hs : l.Sees (Discipline.unique keys) s) :
    (keys (l.pend s)).Nodup ∧ ∀ k, k ∉ l.held → k ∉ keys s → k ∉ keys (l.pend s) := by
  obtain ⟨new, hnodup, hnew, hkeys⟩ := h.inserted
  constructor
  · rw [(hkeys s).nodup_iff]
    refine List.nodup_append.mpr ⟨hnodup, hs.inv, fun k hk k' hk' heq => ?_⟩
    subst heq
    obtain ⟨hheld, hfree⟩ := hnew k hk
    exact hs.keeps k hheld hfree hk'
  · intro k hk hfree htaken
    rcases List.mem_append.mp ((hkeys s).mem_iff.mp htaken) with hin | hin
    · exact hk (hnew k hin).1
    · exact hfree hin

/-- A transaction holds the locks of the keys and has found them free. -/
def Reserved (keys : S → List K) (ks : List K) (l : Local S K) : Prop :=
  ∀ k ∈ ks, k ∈ l.held ∧ k ∉ keys l.last

/-- What is reserved stays reserved. -/
theorem Reserved.sees {ks : List K} {l' : Local S K} (h : Reserved keys ks l)
    (hheld : ∀ k ∈ l.held, k ∈ l'.held) (hs : l.Sees (Discipline.unique keys) l'.last) :
    Reserved keys ks l' := by
  intro k hk
  obtain ⟨hlocked, hfree⟩ := h k hk
  exact ⟨hheld k hlocked, hs.keeps k hlocked hfree⟩

/-- A transaction that adds what it has reserved. -/
theorem Reserved.inserting {ks : List K} (h : Reserved keys ks l) (hnodup : ks.Nodup)
    (hadded : ∀ s, (keys (l.pend s)).Perm (ks ++ keys s)) : Inserting keys l :=
  ⟨ks, hnodup, h, hadded⟩

/-- A transaction that adds no key. -/
theorem inserting_kept (hkept : ∀ s, (keys (l.pend s)).Perm (keys s)) : Inserting keys l :=
  ⟨[], List.nodup_nil, fun _ hk => absurd hk List.not_mem_nil, hkept⟩

namespace Txn

variable [DecidableEq K] {D : Discipline S K} {held : List K}

/-- A program that gives no lock back. -/
theorem NoRelease.lwp {p : Txn S K E V α} (hp : p.NoRelease) (hinv : D.inv l.last) :
    p.lwp D l (fun _ l' => (∀ k ∈ l.held, k ∈ l'.held) ∧ l.Sees D l'.last)
      fun _ l' => (∀ k ∈ l.held, k ∈ l'.held) ∧ l.Sees D l'.last := by
  suffices hgen : ∀ base : Local S K, (∀ k ∈ base.held, k ∈ l.held) → base.Sees D l.last →
      p.lwp D l (fun _ l' => (∀ k ∈ base.held, k ∈ l'.held) ∧ base.Sees D l'.last)
        fun _ l' => (∀ k ∈ base.held, k ∈ l'.held) ∧ base.Sees D l'.last from
    hgen l (fun _ hk => hk) (Local.Sees.of_last hinv)
  intro base hheld hbase
  induction p generalizing l with
  | ret a => exact ⟨hheld, hbase⟩
  | throw e => exact ⟨hheld, hbase⟩
  | read k n ih => exact fun s hs => ih (l.pend s) (hp _) hs.inv hheld (hbase.trans hheld hs)
  | write w n ih => exact ih hp hinv hheld hbase
  | lock k n ih =>
      intro s hs
      exact ih hp hs.inv (fun k' hk' => List.mem_cons_of_mem _ (hheld k' hk'))
        (hbase.trans hheld hs)
  | release ks n ih => exact hp.elim
  | call v n ih => exact ih hp hinv hheld hbase

/-- A program that gives no lock back gives nothing back that is reserved. -/
theorem NoRelease.reserved {p : Txn S K E V α} {ks : List K} (hp : p.NoRelease)
    (hinv : (keys l.last).Nodup) (h : Reserved keys ks l) :
    p.lwp (Discipline.unique keys) l (fun _ l' => Reserved keys ks l') fun _ _ => True :=
  lwp_consequence (hp.lwp hinv) (fun _ _ hl' => h.sees hl'.1 hl'.2) fun _ _ _ => trivial

/-- A program that gives no lock back and leaves the keys as they are. -/
theorem maintains_frame {ε : E → Prop} {p : Txn S K E V α} (hframe : Frame keys ε p)
    (hp : p.NoRelease) :
    p.Maintains (Discipline.unique keys) (Inserting keys) held fun _ _ => True := by
  rintro l rfl hl hinv
  have hkept : ∀ l' : Local S K, (∀ s, keys (l'.pend s) = keys (l.pend s)) →
      (∀ k ∈ l.held, k ∈ l'.held) → l.Sees (Discipline.unique keys) l'.last →
      Leads (Discipline.unique keys) (Inserting keys) l l' := by
    intro l' hsame hheld hsees
    have hmoved : Inserting keys { l with held := l'.held, last := l'.last } :=
      lasting_inserting.locked (lasting_inserting.sees hl hsees) hheld
    obtain ⟨new, hnodup, hnew, hkeys⟩ := hmoved.inserted
    refine ⟨⟨new, hnodup, hnew, fun s => ?_⟩, hsees.inv, hheld, hsees⟩
    rw [hsame]
    exact hkeys s
  have hwrites : p.lwp (Discipline.unique keys) l
      (fun _ l' => ∀ s, keys (l'.pend s) = keys (l.pend s))
      fun _ l' => ∀ s, keys (l'.pend s) = keys (l.pend s) :=
    lwp_of_wp (φ := fun _ _ => True) (κ := fun _ => True) (fun _ _ _ _ => trivial)
      (hframe.wp (fun _ _ h => h) fun _ _ _ h => h)
  exact lwp_consequence (lwp_conj hwrites (hp.lwp hinv))
    (fun _ l' h => ⟨trivial, hkept l' h.1 h.2.1 h.2.2⟩) fun _ l' h => hkept l' h.1 h.2.1 h.2.2

end Txn

end PrimaryKeys

end ReadCommitted
