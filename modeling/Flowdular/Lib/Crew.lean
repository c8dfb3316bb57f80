/-
# Crews of processes

Processes that take turns on a shared state.  A request starts a process
(`Machine.enter`).  What it does next depends on its own place in its code, the shared
state and a choice (`Machine.next`), so a loop is a place it comes back to; the place of
a program is what is left of it (`Prog.machine`).  A process may stop anywhere, and what
it held is given back then (`Machine.stop`).  A run may be confined to moves that meet a
condition on the state before them and on the other processes.

The rule is that of Owicki and Gries: an invariant of the shared state, what each
process knows of it, kept by the moves of the others, and a relation between any two
processes (`Outline`, `Outline.reachable`).  A process may be kept with the request it
answers (`Machine.signed`).  Where processes leave things to be done, a
ledger keeps those that are over (`Machine.ledger`), and a statement about the shared state,
those that run and those that stopped is carried along the steps (`Journal.reachable`,
`Chronicle.reachable`).  A script of turns
evaluates to a crew that is reached (`Crew.reachable_of_play`).
-/

import Flowdular.Lib.Pool
import Mathlib.Data.List.Perm.Basic
import Mathlib.Logic.Relation

namespace Flowdular.Lib

/-- The code of the processes: where a request starts one, their moves, and what the
shared state becomes when one of them stops.  A choice is what a move leaves open: the
outcome of a call, a drawn identifier, the time. -/
structure Machine (σ π ρ χ : Type*) where
  enter : σ → ρ → Option π
  next : σ → π → χ → Option (σ × π)
  stop : σ → π → σ

/-- A shared state and the processes on it. -/
structure Crew (σ π : Type*) where
  shared : σ
  processes : List π

variable {σ π ρ χ : Type*}

/-- A condition on a move: the state before it, the other processes, and the place of
the one that moves. -/
abbrev Machine.Condition (σ π : Type*) :=
  σ → List π → π → Prop

namespace Crew

/-- One step of a crew whose moves meet a condition. -/
inductive Step (M : Machine σ π ρ χ) (cond : Machine.Condition σ π) : Crew σ π → Crew σ π → Prop
  | start {s : σ} {ps : List π} {r : ρ} {p : π} (h : M.enter s r = some p) : Step M cond ⟨s, ps⟩ ⟨s, p :: ps⟩
  | stop {s : σ} {before behind : List π} {p : π} :
      Step M cond ⟨s, before ++ p :: behind⟩ ⟨M.stop s p, before ++ behind⟩
  | move {s s' : σ} {before behind : List π} {p p' : π} {c : χ} (h : M.next s p c = some (s', p'))
      (hcond : cond s (before ++ behind) p) :
      Step M cond ⟨s, before ++ p :: behind⟩ ⟨s', before ++ p' :: behind⟩

variable {cond : Machine.Condition σ π} {s : σ}

/-- The process that started last moves. -/
theorem Step.first {s' : σ} {ps : List π} {p p' : π}
    {c : χ} (h : M.next s p c = some (s', p')) (hc : cond s ps p) :
    Step M cond ⟨s, p :: ps⟩ ⟨s', p' :: ps⟩ := by
  have hm : Step M cond ⟨s, [] ++ p :: ps⟩ ⟨s', [] ++ p' :: ps⟩ := .move h hc
  exact hm

/-- The crews that come of a state without processes. -/
def Reachable (M : Machine σ π ρ χ) (cond : Machine.Condition σ π) (s : σ) : Crew σ π → Prop :=
  Relation.ReflTransGen (Step M cond) ⟨s, []⟩

/-- A run within a condition is one within a weaker condition. -/
theorem Reachable.mono {cond' : Machine.Condition σ π}
    {crew : Crew σ π} (hcond : ∀ s ps p, cond s ps p → cond' s ps p)
    (h : Reachable M cond s crew) : Reachable M cond' s crew := by
  induction h with
  | refl => exact .refl
  | tail _ hs ih =>
    refine ih.tail ?_
    cases hs with
    | start h => exact .start h
    | stop => exact .stop
    | move h hc => exact .move h (hcond _ _ _ hc)

/-! ### Scripts -/

/-- A turn of a script: a process that starts, or one that stops or moves, named by its
position. -/
inductive Turn (ρ χ : Type*) where
  | start (r : ρ)
  | stop (i : ℕ)
  | move (i : ℕ) (c : χ)

section

variable (M : Machine σ π ρ χ) (cond : Machine.Condition σ π) [∀ s ps p, Decidable (cond s ps p)]

/-- The crew behind a turn, if it is a step. -/
def turn (crew : Crew σ π) : Turn ρ χ → Option (Crew σ π)
  | .start r => (M.enter crew.shared r).map fun p => ⟨crew.shared, p :: crew.processes⟩
  | .stop i =>
    match crew.processes.drop i with
    | p :: behind => some ⟨M.stop crew.shared p, crew.processes.take i ++ behind⟩
    | [] => none
  | .move i c =>
    match crew.processes.drop i with
    | p :: behind =>
      if cond crew.shared (crew.processes.take i ++ behind) p then
        (M.next crew.shared p c).map fun (s, p) => ⟨s, crew.processes.take i ++ p :: behind⟩
      else none
    | [] => none

/-- The crew behind a script, if every turn is a step. -/
def play (crew : Crew σ π) : List (Turn ρ χ) → Option (Crew σ π)
  | [] => some crew
  | t :: ts => (turn M cond crew t).bind fun crew => play crew ts

variable {M cond}

variable {crew : Crew σ π}

theorem step_of_turn {crew' : Crew σ π} {t : Turn ρ χ} (h : turn M cond crew t = some crew') :
    Step M cond crew crew' := by
  obtain ⟨s, ps⟩ := crew
  have hspl : ∀ {i : ℕ} {p : π} {behind : List π}, ps.drop i = p :: behind →
      ps = ps.take i ++ p :: behind := by
    intro i p behind hd
    rw [← hd, List.take_append_drop]
  cases t with
  | start r =>
    rw [turn] at h
    obtain ⟨p, hsta, rfl⟩ := Option.map_eq_some_iff.1 h
    exact .start hsta
  | stop i =>
    rw [turn] at h
    split at h
    · next p behind hd =>
      rw [← Option.some.inj h]
      have hs : Step M cond ⟨s, ps.take i ++ p :: behind⟩ _ := .stop
      rwa [← hspl hd] at hs
    · cases h
  | move i c =>
    rw [turn] at h
    split at h
    · next p behind hd =>
      split at h
      · next hc =>
        obtain ⟨⟨s', p'⟩, hn, rfl⟩ := Option.map_eq_some_iff.1 h
        have hm : Step M cond ⟨s, ps.take i ++ p :: behind⟩ _ := .move hn hc
        rwa [← hspl hd] at hm
      · cases h
    · cases h

/-- A script evaluates to a crew that comes of the one it starts from. -/
theorem steps_of_play : ∀ {turns : List (Turn ρ χ)} {first crew : Crew σ π},
    play M cond first turns = some crew → Relation.ReflTransGen (Step M cond) first crew := by
  intro turns
  induction turns with
  | nil =>
    intro first crew h
    rw [← Option.some.inj h]
  | cons t turns ih =>
    intro first crew h
    obtain ⟨mid, ht, hr⟩ := Option.bind_eq_some_iff.1 h
    exact .head (step_of_turn ht) (ih hr)

/-- A script evaluates to a crew that is reached. -/
theorem reachable_of_play {s : σ} {turns : List (Turn ρ χ)}
    (h : play M cond ⟨s, []⟩ turns = some crew) : Reachable M cond s crew :=
  steps_of_play h

end

end Crew

/-- A proof outline of a machine whose moves meet a condition. -/
structure Outline (M : Machine σ π ρ χ) (cond : Machine.Condition σ π) where
  /-- The invariant of the shared state. -/
  inv : σ → Prop
  /-- What a process knows of the shared state. -/
  knows : σ → π → Prop
  /-- What holds between any two processes. -/
  apart : π → π → Prop
  apart_symm : ∀ {p q}, apart p q → apart q p
  start : ∀ {s r p}, inv s → M.enter s r = some p → knows s p ∧ ∀ q, knows s q → apart p q
  stop : ∀ {s p}, inv s → knows s p → inv (M.stop s p)
  stop_other : ∀ {s p q}, inv s → knows s p → knows s q → apart p q → knows (M.stop s p) q
  move : ∀ {s others p c s' p'}, inv s → knows s p → (∀ q ∈ others, knows s q ∧ apart p q) →
    cond s others p → M.next s p c = some (s', p') → inv s' ∧ knows s' p'
  move_other : ∀ {s others p c s' p' q}, inv s → knows s p →
    (∀ q ∈ others, knows s q ∧ apart p q) → cond s others p → M.next s p c = some (s', p') →
    q ∈ others → knows s' q ∧ apart p' q

namespace Outline

variable {M : Machine σ π ρ χ} {cond : Machine.Condition σ π} (o : Outline M cond)

/-- The outline holds of a crew. -/
structure Holds (crew : Crew σ π) : Prop where
  inv : o.inv crew.shared
  knows : ∀ p ∈ crew.processes, o.knows crew.shared p
  apart : crew.processes.Pairwise o.apart

variable {o}

variable {before : List π} {p : π} {s : σ} {crew : Crew σ π}

/-- Around a process of a crew stand processes that are apart from it. -/
theorem Holds.others {behind : List π} (h : o.Holds ⟨s, before ++ p :: behind⟩) :
    o.knows s p ∧ (∀ q ∈ before ++ behind, o.knows s q ∧ o.apart p q) ∧
      (before ++ behind).Pairwise o.apart := by
  have hp : (before ++ p :: behind).Perm (p :: (before ++ behind)) := List.perm_middle
  have hpai := (hp.pairwise_iff fun hpq => o.apart_symm hpq).1 h.apart
  rw [List.pairwise_cons] at hpai
  have hk := fun q hq => h.knows q (hp.mem_iff.2 hq)
  refine ⟨hk p List.mem_cons_self, fun q hq => ⟨?_, hpai.1 q hq⟩, hpai.2⟩
  exact hk q (List.mem_cons_of_mem _ hq)

/-- A process and those around it make up a crew. -/
theorem holds_of_others {behind : List π} (hi : o.inv s)
    (hp : o.knows s p) (ho : ∀ q ∈ before ++ behind, o.knows s q ∧ o.apart p q)
    (hpai : (before ++ behind).Pairwise o.apart) : o.Holds ⟨s, before ++ p :: behind⟩ := by
  have hperm : (before ++ p :: behind).Perm (p :: (before ++ behind)) := List.perm_middle
  refine ⟨hi, fun q hq => ?_, ?_⟩
  · rcases List.mem_cons.1 (hperm.mem_iff.1 hq) with rfl | hq
    · exact hp
    · exact (ho q hq).1
  · rw [hperm.pairwise_iff fun hpq => o.apart_symm hpq, List.pairwise_cons]
    exact ⟨fun q hq => (ho q hq).2, hpai⟩

theorem Holds.step {crew' : Crew σ π} (h : o.Holds crew) (hs : Crew.Step M cond crew crew') :
    o.Holds crew' := by
  cases hs with
  | start hsta =>
    obtain ⟨hk, ha⟩ := o.start h.inv hsta
    refine ⟨h.inv, List.forall_mem_cons.2 ⟨hk, h.knows⟩, List.pairwise_cons.2 ⟨?_, h.apart⟩⟩
    exact fun q hq => ha q (h.knows q hq)
  | stop =>
    obtain ⟨hk, ho, hp⟩ := h.others
    refine ⟨o.stop h.inv hk, fun q hq => ?_, hp⟩
    exact o.stop_other h.inv hk (ho q hq).1 (ho q hq).2
  | move hm hc =>
    obtain ⟨hk, ho, hp⟩ := h.others
    obtain ⟨hi', hk'⟩ := o.move h.inv hk ho hc hm
    exact holds_of_others hi' hk' (fun q hq => o.move_other h.inv hk ho hc hm hq) hp

/-- **The rule of Owicki and Gries.** -/
theorem reachable (hi : o.inv s) (h : Crew.Reachable M cond s crew) : o.Holds crew := by
  induction h with
  | refl => exact ⟨hi, fun p hp => absurd hp List.not_mem_nil, List.Pairwise.nil⟩
  | tail _ hs ih => exact ih.step hs

end Outline

/-! ### Requests that are kept -/

/-- The machine that keeps with each process the request it answers. -/
def Machine.signed (M : Machine σ π ρ χ) : Machine σ (ρ × π) ρ χ where
  enter s r := (M.enter s r).map fun p => (r, p)
  next s p c := (M.next s p.2 c).map fun (s', p') => (s', (p.1, p'))
  stop s p := M.stop s p.2

variable {M : Machine σ π ρ χ}

variable {p : ρ × π} {s : σ} {cond : Machine.Condition σ π} {crew : Crew (σ × List π) π}

theorem Machine.signed_enter {r : ρ} (h : M.signed.enter s r = some p) :
    M.enter s r = some p.2 ∧ p.1 = r := by
  obtain ⟨p', hp', rfl⟩ := Option.map_eq_some_iff.1 h
  exact ⟨hp', rfl⟩

theorem Machine.signed_next {s' : σ} {p' : ρ × π} {c : χ} (h : M.signed.next s p c = some (s', p')) :
    M.next s p.2 c = some (s', p'.2) ∧ p'.1 = p.1 := by
  obtain ⟨⟨s₁, p₁⟩, hn, heq⟩ := Option.map_eq_some_iff.1 h
  cases heq
  exact ⟨hn, rfl⟩

/-! ### Processes that are over -/

/-- The machine that keeps the processes that stopped beside the shared state. -/
def Machine.ledger (M : Machine σ π ρ χ) : Machine (σ × List π) π ρ χ where
  enter s r := M.enter s.1 r
  next s p c := (M.next s.1 p c).map fun (s', p') => ((s', s.2), p')
  stop s p := (M.stop s.1 p, p :: s.2)

/-- A condition on a move, beside a ledger. -/
def Machine.Condition.ledger (cond : Machine.Condition σ π) : Machine.Condition (σ × List π) π :=
  fun s others p => cond s.1 others p

/-- The processes of a crew, those that are over included. -/
def Crew.everyone (crew : Crew (σ × List π) π) : List π :=
  crew.processes ++ crew.shared.2

/-- A statement about the shared state and all processes there were, in any order. -/
structure Chronicle (M : Machine σ π ρ χ) (cond : Machine.Condition σ π) where
  holds : σ → List π → Prop
  perm : ∀ {s ps ps'}, ps.Perm ps' → holds s ps → holds s ps'
  start : ∀ {s ps r p}, holds s ps → M.enter s r = some p → holds s (p :: ps)
  stop : ∀ {s ps p}, holds s (p :: ps) → holds (M.stop s p) (p :: ps)
  move : ∀ {s others gone p c s' p'}, holds s (p :: (others ++ gone)) → cond s others p →
    M.next s p c = some (s', p') → holds s' (p' :: (others ++ gone))

/-- A statement about the shared state, the processes that run, in any order, and those that
stopped. -/
structure Journal (M : Machine σ π ρ χ) (cond : Machine.Condition σ π) where
  holds : σ → List π → List π → Prop
  perm : ∀ {s ps ps' gone}, ps.Perm ps' → holds s ps gone → holds s ps' gone
  start : ∀ {s ps gone r p}, holds s ps gone → M.enter s r = some p → holds s (p :: ps) gone
  stop : ∀ {s ps gone p}, holds s (p :: ps) gone → holds (M.stop s p) ps (p :: gone)
  move : ∀ {s others gone p c s' p'}, holds s (p :: others) gone → cond s others p →
    M.next s p c = some (s', p') → holds s' (p' :: others) gone

/-- **A journal holds of every crew that is reached.** -/
theorem Journal.reachable (J : Journal M cond) (hsta : J.holds s [] [])
    (h : Crew.Reachable M.ledger cond.ledger (s, []) crew) :
    J.holds crew.shared.1 crew.processes crew.shared.2 := by
  induction h with
  | refl => exact hsta
  | tail _ hs ih =>
    cases hs with
    | start h => exact J.start ih h
    | @stop s before behind p => exact J.stop (J.perm List.perm_middle ih)
    | @move s s' before behind p p' c h hc =>
      obtain ⟨⟨s₁, p₁⟩, hn, hp⟩ := Option.map_eq_some_iff.1 h
      cases hp
      exact J.perm List.perm_middle.symm (J.move (J.perm List.perm_middle ih) hc hn)

/-- A chronicle, as a journal of those that run and those that stopped. -/
def Chronicle.journal {M : Machine σ π ρ χ} {cond : Machine.Condition σ π} (C : Chronicle M cond) :
    Journal M cond where
  holds s ps gone := C.holds s (ps ++ gone)
  perm hperm h := C.perm (hperm.append_right _) h
  start h henter := C.start h henter
  stop h := C.perm List.perm_middle.symm (C.stop h)
  move h hcond hnext := C.move h hcond hnext

/-- **A chronicle holds of every crew that is reached.** -/
theorem Chronicle.reachable (C : Chronicle M cond) (hs : C.holds s [])
    (h : Crew.Reachable M.ledger cond.ledger (s, []) crew) : C.holds crew.shared.1 crew.everyone :=
  C.journal.reachable hs h

/-! ### Crews of programs -/

namespace Prog

universe u

variable {C : Type u} {R : C → Type u} {α : Type u}

/-- Processes that are programs: each request has one, and a choice says how a service
answers a call. -/
def machine (program : ρ → Prog C R α) (serve : (c : C) → σ → χ → R c × σ) :
    Machine σ (Prog C R α) ρ χ where
  enter _ r := some (program r)
  next s p choice :=
    match p with
    | .call c next => some ((serve c s choice).2, next (serve c s choice).1)
    | .pure _ => none
    | .fail _ => none
  stop s _ := s

variable {program : ρ → Prog C R α} {serve : (c : C) → σ → χ → R c × σ}

/-- A program moves by a call. -/
theorem machine_next {s s' : σ} {p p' : Prog C R α} {choice : χ}
    (h : (machine program serve).next s p choice = some (s', p')) :
    ∃ c next, p = .call c next ∧ s' = (serve c s choice).2 ∧ p' = next (serve c s choice).1 := by
  cases p with
  | pure a => cases h
  | fail e => cases h
  | call c next =>
    cases h
    exact ⟨c, next, rfl, rfl, rfl⟩

/-! A crew of programs is a pool, so the rule of rely and guarantee holds of it. -/

section

variable {program : ρ → Prog C R PUnit} {D : Discipline C R σ}
  {cond : Machine.Condition σ (Prog C R PUnit)} {crew crew' : Crew σ (Prog C R PUnit)}

/-- A crew of programs and the pool it is. -/
def pool (crew : Crew σ (Prog C R PUnit)) : Pool C R σ :=
  ⟨crew.shared, crew.processes⟩

/-- A step of a crew of programs is one of the pool. -/
theorem pool_step (hserve : ∀ c s choice, D.serve c s (serve c s choice).1 (serve c s choice).2)
    (h : Crew.Step (machine program serve) cond crew crew') :
    Pool.Step D.serve (fun _ p => ∃ r, program r = p) (fun _ _ => False) (pool crew) (pool crew') := by
  cases h with
  | start h => exact .start ⟨_, Option.some.inj h⟩
  | stop => exact .stop
  | move h =>
    obtain ⟨c, next, rfl, rfl, rfl⟩ := machine_next h
    exact .call (hserve _ _ _)

variable (hserve : ∀ c s choice, D.serve c s (serve c s choice).1 (serve c s choice).2)
  (hsafe : ∀ r s, D.inv s → D.Safe (fun _ _ => True) (program r) s)

include hserve hsafe

/-- **The rule of rely and guarantee**, of a crew of programs: a run keeps it safe and is
within the rely. -/
theorem safe_of_steps (hp : (pool crew).Safe D)
    (h : Relation.ReflTransGen (Crew.Step (machine program serve) cond) crew crew') :
    (pool crew').Safe D ∧ D.rely crew.shared crew'.shared := by
  have hk : Pool.Keeps D (fun _ p => ∃ r, program r = p) fun _ _ => False :=
    ⟨fun _ h => h.elim, by rintro s _ hs ⟨r, rfl⟩; exact hsafe r s hs⟩
  induction h with
  | refl => exact ⟨hp, D.refl _⟩
  | tail _ hstep ih =>
    obtain ⟨hp', hr⟩ := ih.1.step hk (pool_step hserve hstep)
    exact ⟨hp', D.trans ih.2 hr⟩

theorem safe_of_reachable {s : σ} (hi : D.inv s)
    (h : Crew.Reachable (machine program serve) cond s crew) : (pool crew).Safe D := by
  have hs : (pool (⟨s, []⟩ : Crew σ (Prog C R PUnit))).Safe D :=
    ⟨hi, fun p hp => absurd hp List.not_mem_nil⟩
  exact (safe_of_steps hserve hsafe hs h).1

end

end Prog
end Flowdular.Lib
