/-
# Pools of programs

Programs over one shared state that take turns call by call: a step is a call of
one of them, a program that starts, one that is cut off, or a move of the world.
The rule is that of rely and guarantee: where every program that starts is safe
under a discipline and the world keeps its invariant within the rely, every reachable
state satisfies the invariant (`Pool.invariant`) and every step is within the
rely (`Pool.step_rely`).
-/

import Flowdular.Lib.Discipline
import Mathlib.Logic.Relation

namespace Flowdular.Lib

universe u

/-- A shared state and the programs that are running on it. -/
structure Pool (C : Type u) (R : C → Type u) (σ : Type*) where
  shared : σ
  threads : List (Prog C R PUnit)

namespace Pool

variable {C : Type u} {R : C → Type u} {σ : Type*}

/-- One step: `starts` says which programs may start, `world` what moves by
itself. -/
inductive Step (serve : Prog.Service C R σ) (starts : σ → Prog C R PUnit → Prop)
    (world : σ → σ → Prop) : Pool C R σ → Pool C R σ → Prop
  | world {s s' : σ} {threads : List (Prog C R PUnit)} (h : world s s') :
      Step serve starts world ⟨s, threads⟩ ⟨s', threads⟩
  | start {s : σ} {threads : List (Prog C R PUnit)} {p : Prog C R PUnit} (h : starts s p) :
      Step serve starts world ⟨s, threads⟩ ⟨s, p :: threads⟩
  | stop {s : σ} {before behind : List (Prog C R PUnit)} {p : Prog C R PUnit} :
      Step serve starts world ⟨s, before ++ p :: behind⟩ ⟨s, before ++ behind⟩
  | call {s s' : σ} {before behind : List (Prog C R PUnit)} {c : C} {next : R c → Prog C R PUnit}
      {r : R c} (h : serve c s r s') :
      Step serve starts world ⟨s, before ++ .call c next :: behind⟩ ⟨s', before ++ next r :: behind⟩

/-- The states of a pool that starts in `s` without programs. -/
def Reachable (serve : Prog.Service C R σ) (starts : σ → Prog C R PUnit → Prop)
    (world : σ → σ → Prop) (s : σ) : Pool C R σ → Prop :=
  Relation.ReflTransGen (Step serve starts world) ⟨s, []⟩

variable {serve : Prog.Service C R σ} {starts : σ → Prog C R PUnit → Prop} {world : σ → σ → Prop}

/-- What a world and the programs that start in it keep of a discipline. -/
structure Keeps (D : Discipline C R σ) (starts : σ → Prog C R PUnit → Prop)
    (world : σ → σ → Prop) : Prop where
  world : ∀ {s s'}, D.inv s → world s s' → D.inv s' ∧ D.rely s s'
  starts : ∀ {s p}, D.inv s → starts s p → D.Safe (fun _ _ => True) p s

variable {D : Discipline C R σ}

/-- The invariant of a pool: the one of the shared state, and safe programs. -/
def Safe (D : Discipline C R σ) (pool : Pool C R σ) : Prop :=
  D.inv pool.shared ∧ ∀ p ∈ pool.threads, D.Safe (fun _ _ => True) p pool.shared

variable {pool' : Pool C R σ} {s : σ}

theorem Safe.step (hk : Keeps D starts world) {pool : Pool C R σ}
    (h : pool.Safe D) (hstep : Step D.serve starts world pool pool') :
    pool'.Safe D ∧ D.rely pool.shared pool'.shared := by
  obtain ⟨hi, hs⟩ := h
  have hm : ∀ {p : Prog C R PUnit} {s s' : σ}, D.rely s s' →
      D.Safe (fun _ _ => True) p s → D.Safe (fun _ _ => True) p s' :=
    fun hr hp => hp.of_rely (fun _ _ _ _ _ => trivial) hr
  cases hstep with
  | world hw =>
    obtain ⟨hi', hr⟩ := hk.world hi hw
    exact ⟨⟨hi', fun p hp => hm hr (hs p hp)⟩, hr⟩
  | start hsta =>
    refine ⟨⟨hi, fun p hp => ?_⟩, D.refl _⟩
    rcases List.mem_cons.1 hp with rfl | hp
    · exact hk.starts hi hsta
    · exact hs p hp
  | stop =>
    refine ⟨⟨hi, fun p hp => hs p ?_⟩, D.refl _⟩
    rcases List.mem_append.1 hp with hp | hp
    · exact List.mem_append_left _ hp
    · exact List.mem_append_right _ (List.mem_cons_of_mem _ hp)
  | @call s s' before behind c next r hser =>
    have hc := hs (.call c next) (List.mem_append_right _ List.mem_cons_self)
    obtain ⟨hok, hn⟩ := hc _ (D.refl _) hi
    obtain ⟨hi', hr⟩ := D.keeps hi hok hser
    refine ⟨⟨hi', fun p hp => ?_⟩, hr⟩
    rcases List.mem_append.1 hp with hp | hp
    · exact hm hr (hs p (List.mem_append_left _ hp))
    · rcases List.mem_cons.1 hp with rfl | hp
      · exact hn r _ hser
      · exact hm hr (hs p (List.mem_append_right _ (List.mem_cons_of_mem _ hp)))

/-- **The rule of rely and guarantee.** -/
theorem safe_of_reachable (hk : Keeps D starts world) (hi : D.inv s)
    {pool : Pool C R σ} (h : Reachable D.serve starts world s pool) : pool.Safe D := by
  induction h with
  | refl => exact ⟨hi, fun p hp => absurd hp List.not_mem_nil⟩
  | tail _ hs ih => exact (ih.step hk hs).1

/-- Every reachable state satisfies the invariant. -/
theorem invariant (hk : Keeps D starts world) (hi : D.inv s)
    {pool : Pool C R σ} (h : Reachable D.serve starts world s pool) : D.inv pool.shared :=
  (safe_of_reachable hk hi h).1

/-- Every step of a reachable pool is within the rely. -/
theorem step_rely (hk : Keeps D starts world) (hi : D.inv s)
    {pool : Pool C R σ} (h : Reachable D.serve starts world s pool)
    (hs : Step D.serve starts world pool pool') : D.rely pool.shared pool'.shared :=
  ((safe_of_reachable hk hi h).step hk hs).2

end Pool
end Flowdular.Lib
