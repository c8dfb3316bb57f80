/-
# Programs that remember

A process kept together with the calls it made and the replies it had, so that a
condition on a move and what is known of a process can speak of what it has read.  Every
call of a program being right behind the calls before it (`Along`) follows the program, and
one move keeps it (`Along.next`, `Abides.move`); so it is with what the whole history says of
the result (`Ends`).
-/

import Flowdular.Lib.Crew
import Flowdular.Lib.Transact

namespace Flowdular.Lib
namespace Prog

universe u

variable {C : Type u} {R : C → Type u} {A : C → Type u} {α β : Type u} {σ ρ χ : Type*}

/-- The calls a process made, each with its reply. -/
abbrev History (C : Type u) (R : C → Type u) :=
  List (Σ c, R c)

/-- A process: its history, and what is left of its program. -/
structure Recorded (C : Type u) (R : C → Type u) (α : Type u) where
  history : History C R
  rest : Prog C R α

/-- The process has a call to make. -/
def Recorded.running (p : Recorded C R α) : Bool :=
  match p.rest with
  | .call .. => true
  | .pure _ => false
  | .fail _ => false

/-- The crew of programs that remember. -/
def recorder (program : ρ → Prog C R α) (serve : (c : C) → σ → χ → R c × σ) :
    Machine σ (Recorded C R α) ρ χ where
  enter _ r := some ⟨[], program r⟩
  next s p choice :=
    match p.rest with
    | .call c next =>
      some ((serve c s choice).2,
        ⟨p.history ++ [⟨c, (serve c s choice).1⟩], next (serve c s choice).1⟩)
    | .pure _ => none
    | .fail _ => none
  stop s _ := s

variable {program : ρ → Prog C R α} {serve : (c : C) → σ → χ → R c × σ}

/-- A process moves by a call. -/
theorem recorder_next {s s' : σ} {p p' : Recorded C R α} {choice : χ}
    (h : (recorder program serve).next s p choice = some (s', p')) :
    ∃ c next, p.rest = .call c next ∧ s' = (serve c s choice).2 ∧
      p' = ⟨p.history ++ [⟨c, (serve c s choice).1⟩], next (serve c s choice).1⟩ := by
  obtain ⟨history, rest⟩ := p
  cases rest with
  | pure a => cases h
  | fail e => cases h
  | call c next =>
    cases h
    exact ⟨c, next, rfl, rfl, rfl⟩

/-- A process that is kept with its request starts with an empty history. -/
theorem recorder_signed_enter {s : σ} {r : ρ} {p : ρ × Recorded C R α}
    (h : (recorder program serve).signed.enter s r = some p) : p = (r, ⟨[], program r⟩) := by
  obtain ⟨hp, hr⟩ := Machine.signed_enter h
  exact Prod.ext hr (Option.some.inj hp).symm

/-- It moves by a call, under its request. -/
theorem recorder_signed_next {s s' : σ} {p p' : ρ × Recorded C R α} {choice : χ}
    (h : (recorder program serve).signed.next s p choice = some (s', p')) :
    ∃ r history c next, p = (r, ⟨history, .call c next⟩) ∧ s' = (serve c s choice).2 ∧
      p' = (r, ⟨history ++ [⟨c, (serve c s choice).1⟩], next (serve c s choice).1⟩) := by
  obtain ⟨r, history, rest⟩ := p
  obtain ⟨r', p'⟩ := p'
  obtain ⟨hn, hr⟩ := Machine.signed_next h
  obtain ⟨c, next, hrest, hs, hp⟩ := recorder_next hn
  dsimp only at hrest hr hp
  subst hrest hr hp
  exact ⟨r', history, c, next, rfl, hs, rfl⟩

/-- It does so beside a ledger. -/
theorem recorder_ledger_next {s s' : σ × List (ρ × Recorded C R α)} {p p' : ρ × Recorded C R α}
    {choice : χ} (h : (recorder program serve).signed.ledger.next s p choice = some (s', p')) :
    ∃ r history c next, p = (r, ⟨history, .call c next⟩) ∧ s'.1 = (serve c s.1 choice).2 := by
  obtain ⟨⟨s₁, p₁⟩, hn, hpair⟩ := Option.map_eq_some_iff.1 h
  obtain ⟨r, history, c, next, hp, hs, -⟩ := recorder_signed_next hn
  cases hpair
  exact ⟨r, history, c, next, hp, hs⟩

/-! ### Calls behind their history -/

/-- Every call a program may still make satisfies `ok` behind its history. -/
inductive Along (ok : History C R → C → Prop) : History C R → Prog C R α → Prop
  | pure {history : History C R} {a : α} : Along ok history (.pure a)
  | fail {history : History C R} {e : String} : Along ok history (.fail e)
  | call {history : History C R} {c : C} {next : R c → Prog C R α} (hc : ok history c)
      (hnext : ∀ r, Along ok (history ++ [⟨c, r⟩]) (next r)) : Along ok history (.call c next)

variable {ok : History C R → C → Prop} {history : History C R}

variable {c : C} {f : α → Prog C R β} {p : Prog C R α} {P : C → Prop} {x : Except String α}
  {post' : History C R → α → Prop}

theorem Along.ok_call {next : R c → Prog C R α} (h : Along ok history (.call c next)) :
    ok history c := by
  cases h with
  | call hc _ => exact hc

theorem Along.next {next : R c → Prog C R α} (h : Along ok history (.call c next)) (r : R c) :
    Along ok (history ++ [⟨c, r⟩]) (next r) := by
  cases h with
  | call _ hn => exact hn r

/-- A sequence, where the second program may follow any history the first one adds to. -/
theorem along_bind (hp : Along ok history p)
    (hf : ∀ a history', history <+: history' → Along ok history' (f a)) :
    Along ok history (p >>= f) := by
  induction hp with
  | pure => exact hf _ _ (List.prefix_refl _)
  | fail => exact .fail
  | call hc hn ih =>
    refine .call hc fun r => ih r fun a history' hle => hf a history' ?_
    exact (List.prefix_append _ _).trans hle

/-- Calls that may be made behind any history. -/
theorem along_of_all (hok : ∀ history c, P c → ok history c)
    (h : Discipline.All P p) : Along ok history p := by
  induction p generalizing history with
  | pure a => exact .pure
  | fail e => exact .fail
  | call c next ih => exact .call (hok _ _ h.1) fun r => ih r (h.2 r)

/-- Calls that may be made behind any history that goes on from here. -/
theorem along_of_all_behind (hok : ∀ history', history <+: history' → ∀ c, P c → ok history' c)
    (h : Discipline.All P p) : Along ok history p := by
  induction p generalizing history with
  | pure a => exact .pure
  | fail e => exact .fail
  | call c next ih =>
    refine .call (hok _ (List.prefix_refl _) _ h.1) fun r => ih r (fun history' hle => hok history' ?_) (h.2 r)
    exact (List.prefix_append _ _).trans hle

/-- A sequence whose first program makes such calls only. -/
theorem along_all_bind (hok : ∀ history c, P c → ok history c) (hp : Discipline.All P p)
    (hf : ∀ a extra, (∀ entry ∈ extra, P entry.1) → Along ok (history ++ extra) (f a)) :
    Along ok history (p >>= f) := by
  induction p generalizing history with
  | pure a => simpa using hf a [] fun _ h => (nomatch h)
  | fail e => exact .fail
  | call c next ih =>
    refine .call (hok _ _ hp.1) fun r => ih r (hp.2 r) fun a extra he => ?_
    rw [List.append_assoc]
    exact hf a _ (List.forall_mem_append.2 ⟨List.forall_mem_singleton.2 hp.1, he⟩)

/-- A call that is passed on where it fails. -/
theorem along_need_bind {ok : History C (Reply A) → C → Prop} {history : History C (Reply A)}
    {f : A c → Prog C (Reply A) β} (hc : ok history c)
    (hf : ∀ a, Along ok (history ++ [⟨c, .ok a⟩]) (f a)) : Along ok history (need c >>= f) := by
  rw [need_bind]
  refine .call hc fun r => ?_
  cases r with
  | error e => exact .fail
  | ok a => exact hf a

/-- A result that is passed on where it is a failure. -/
theorem along_ofExcept_bind
    (hf : ∀ a, x = .ok a → Along ok history (f a)) : Along ok history (ofExcept x >>= f) := by
  cases x with
  | error e => exact .fail
  | ok a => exact hf a rfl

/-- A process whose calls are right, those it made and those it may make. -/
structure Abides (ok : History C R → C → Prop) (p : Recorded C R α) : Prop where
  made : ∀ before entry behind, p.history = before ++ entry :: behind → ok before entry.1
  along : Along ok p.history p.rest

theorem abides_start (h : Along ok [] p) : Abides ok ⟨[], p⟩ := by
  refine ⟨fun before entry behind hs => ?_, h⟩
  have hl := congrArg List.length hs
  simp at hl

theorem Abides.move {p : Recorded C R α} (h : Abides ok p) {next : R c → Prog C R α}
    (hr : p.rest = .call c next) (r : R c) : Abides ok ⟨p.history ++ [⟨c, r⟩], next r⟩ := by
  have ha := h.along
  rw [hr] at ha
  refine ⟨fun before entry behind hs => ?_, ha.next r⟩
  rcases List.append_eq_append_iff.1 hs with ⟨extra, hb, hext⟩ | ⟨extra, hh, hext⟩
  · have hext' : extra = [] ∧ entry = ⟨c, r⟩ := by
      cases extra with
      | nil => exact ⟨rfl, (List.cons.inj hext).1.symm⟩
      | cons e extra => simp at hext
    obtain ⟨rfl, rfl⟩ := hext'
    rw [hb, List.append_nil]
    exact ha.ok_call
  · cases extra with
    | nil =>
      rw [List.nil_append] at hext
      have hent : entry = ⟨c, r⟩ := (List.cons.inj hext).1
      rw [hent, ← (List.append_nil before), ← hh]
      exact ha.ok_call
    | cons e extra =>
      have he : entry = e := (List.cons.inj hext).1
      rw [he]
      exact h.made before e extra hh

/-! ### The history of a result -/

/-- Whatever a program returns, its history satisfies `post` of it. -/
inductive Ends (post : History C R → α → Prop) : History C R → Prog C R α → Prop
  | pure {history : History C R} {a : α} (h : post history a) : Ends post history (.pure a)
  | fail {history : History C R} {e : String} : Ends post history (.fail e)
  | call {history : History C R} {c : C} {next : R c → Prog C R α}
      (hnext : ∀ r, Ends post (history ++ [⟨c, r⟩]) (next r)) : Ends post history (.call c next)

variable {post : History C R → α → Prop}

theorem ends_of_forall (h : ∀ history a, post history a) : Ends post history p := by
  induction p generalizing history with
  | pure a => exact .pure (h _ a)
  | fail e => exact .fail
  | call c next ih => exact .call fun r => ih r

theorem Ends.of_pure {a : α} (h : Ends post history (.pure a)) : post history a := by
  cases h with
  | pure h => exact h

theorem Ends.next {next : R c → Prog C R α} (h : Ends post history (.call c next)) (r : R c) :
    Ends post (history ++ [⟨c, r⟩]) (next r) := by
  cases h with
  | call hn => exact hn r

theorem Ends.and (h : Ends post history p)
    (h' : Ends post' history p) : Ends (fun history a => post history a ∧ post' history a) history p := by
  induction h with
  | pure h => exact .pure ⟨h, h'.of_pure⟩
  | fail => exact .fail
  | call _ ih => exact .call fun r => ih r (h'.next r)

theorem Ends.mono (h : Ends post history p)
    (hp : ∀ history a, post history a → post' history a) : Ends post' history p := by
  induction h with
  | pure h => exact .pure (hp _ _ h)
  | fail => exact .fail
  | call _ ih => exact .call ih

/-- What holds of any history that goes on from here. -/
theorem ends_of_behind (h : ∀ history' a, history <+: history' → post history' a) :
    Ends post history p := by
  induction p generalizing history with
  | pure a => exact .pure (h _ a (List.prefix_refl _))
  | fail e => exact .fail
  | call c next ih =>
    exact .call fun r => ih r fun history' a hle => h history' a ((List.prefix_append _ _).trans hle)

/-- What a program adds to its history are its calls. -/
theorem ends_all (hp : Discipline.All P p) :
    Ends (fun history' _ => ∃ extra, history' = history ++ extra ∧ ∀ entry ∈ extra, P entry.1) history p := by
  induction p generalizing history with
  | pure a => exact .pure ⟨[], (List.append_nil _).symm, fun _ h => (nomatch h)⟩
  | fail e => exact .fail
  | call c next ih =>
    refine .call fun r => (ih r (hp.2 r)).mono fun history' _ => ?_
    rintro ⟨extra, rfl, he⟩
    exact ⟨⟨c, r⟩ :: extra, by simp, List.forall_mem_cons.2 ⟨hp.1, he⟩⟩

/-- A sequence, where the second program may follow any history the first one adds to. -/
theorem ends_bind {post : History C R → β → Prop}
    (hf : ∀ a history', history <+: history' → Ends post history' (f a)) :
    Ends post history (p >>= f) := by
  induction p generalizing history with
  | pure a => exact hf a _ (List.prefix_refl _)
  | fail e => exact .fail
  | call c next ih =>
    refine .call fun r => ih r fun a history' hle => hf a history' ?_
    exact (List.prefix_append _ _).trans hle

/-- A sequence whose first program makes calls that satisfy `P`. -/
theorem ends_all_bind {post : History C R → β → Prop} (hp : Discipline.All P p)
    (hf : ∀ a extra, (∀ entry ∈ extra, P entry.1) → Ends post (history ++ extra) (f a)) :
    Ends post history (p >>= f) := by
  induction p generalizing history with
  | pure a => simpa using hf a [] fun _ h => (nomatch h)
  | fail e => exact .fail
  | call c next ih =>
    refine .call fun r => ih r (hp.2 r) fun a extra he => ?_
    rw [List.append_assoc]
    exact hf a _ (List.forall_mem_append.2 ⟨List.forall_mem_singleton.2 hp.1, he⟩)

/-- A call that is passed on where it fails. -/
theorem ends_need_bind {post : History C (Reply A) → β → Prop} {history : History C (Reply A)}
    {f : A c → Prog C (Reply A) β} (hf : ∀ a, Ends post (history ++ [⟨c, .ok a⟩]) (f a)) :
    Ends post history (need c >>= f) := by
  rw [need_bind]
  refine .call fun r => ?_
  cases r with
  | error e => exact .fail
  | ok a => exact hf a

/-- A result that is passed on where it is a failure. -/
theorem ends_ofExcept_bind {post : History C R → β → Prop}
    (hf : ∀ a, Ends post history (f a)) : Ends post history (ofExcept x >>= f) := by
  cases x with
  | error e => exact .fail
  | ok a => exact hf a

/-- A sequence whose second program follows what is known of the result of the first. -/
theorem ends_ends_bind {post' : History C R → β → Prop} (hp : Ends post history p)
    (hf : ∀ a history', history <+: history' → post history' a → Ends post' history' (f a)) :
    Ends post' history (p >>= f) := by
  induction hp with
  | pure h => exact hf _ _ (List.prefix_refl _) h
  | fail => exact .fail
  | call _ ih =>
    refine .call fun r => ih r fun a history' hle => hf a history' ?_
    exact (List.prefix_append _ _).trans hle

theorem along_ends_bind (hp : Along ok history p) (he : Ends post history p)
    (hf : ∀ a history', history <+: history' → post history' a → Along ok history' (f a)) :
    Along ok history (p >>= f) := by
  induction hp with
  | pure => exact hf _ _ (List.prefix_refl _) he.of_pure
  | fail => exact .fail
  | call hc _ ih =>
    refine .call hc fun r => ih r (he.next r) fun a history' hle => hf a history' ?_
    exact (List.prefix_append _ _).trans hle

end Prog
end Flowdular.Lib
