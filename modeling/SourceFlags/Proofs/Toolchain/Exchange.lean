import SourceFlags.Proofs.Toolchain.Journal

namespace SourceFlags

open Probe

structure Question where
  program   : String
  arguments : List String
  input     : Option String
  deriving DecidableEq

namespace Question

def run (q : Question) (fromHome : Bool) : Run :=
  ⟨q.program :: q.arguments, q.input, fromHome, locale⟩

def ask (w : World) (q : Question) : Probing Answer :=
  query w q.program q.arguments q.input

end Question

structure Exchange where
  question : Question
  attempts : Journal
  answer   : Answer

namespace World

def made {α : Type} (w : World) (x : Probing α) (past : History) : Journal :=
  w.journal past ((x past).2.drop past.length)

def exchange (w : World) (past : History) (q : Question) : Exchange :=
  ⟨q, w.made (q.ask w) past, (q.ask w past).1⟩

def exchanges (w : World) (past : History) : List Question → List Exchange
  | []      => []
  | q :: qs => w.exchange past q :: w.exchanges (q.ask w past).2 qs

def asked (w : World) (past : History) (qs : List Question) : History :=
  qs.foldl (fun past q => (q.ask w past).2) past

end World

inductive Exchange.IsConducted : Exchange → Prop
  | once (q : Question) {o : Outcome} (h : ∀ reason, o ≠ .notLaunched reason) :
      IsConducted ⟨q, [(q.run false, o)], .ofOutcome q.program q.arguments o⟩
  | again (q : Question) (reason : String) (o : Outcome) :
      IsConducted ⟨q, [(q.run false, .notLaunched reason), (q.run true, o)],
        .ofOutcome q.program q.arguments o⟩

-- All runs of a question are made to answer it, one or two of them. None is made after one that
-- takes too long, and the answer tells whether the last one has finished.
structure Exchange.IsSettled (x : Exchange) : Prop where
  asks : ∀ e ∈ x.attempts,
    e.1.command = x.question.program :: x.question.arguments ∧ e.1.input = x.question.input
  length : x.attempts.length = 1 ∨ x.attempts.length = 2
  timedOut_last : ∀ before run after, x.attempts = before ++ (run, .timedOut) :: after → after = []
  isLaunched_iff : x.answer.isLaunched = true ↔
    ∃ run code output, x.attempts.getLast? = some (run, .exited code output)

namespace Journal

structure IsRetry (e e' : Run × Outcome) : Prop where
  normal : e.1.fromHome = false
  failed : ∃ reason, e.2 = .notLaunched reason
  again  : e'.1 = { e.1 with fromHome := true }

-- The runs from the home directory are just those that come right after a run that has failed.
structure IsOrderly (j : Journal) : Prop where
  locale  : ∀ e ∈ j, e.1.locale = "C"
  retries : ∀ before e after, j = before ++ e :: after → e.1.fromHome = true →
    ∃ earlier f, before = earlier ++ [f] ∧ IsRetry f e
  retried : ∀ before e after reason, j = before ++ e :: after → e.1.fromHome = false →
    e.2 = .notLaunched reason → ∃ f later, after = f :: later ∧ IsRetry e f

variable {j j' before after : Journal} {e e' f : Run × Outcome}

theorem singleton_eq_append_cons (h : [e] = before ++ e' :: after) :
    before = [] ∧ e' = e ∧ after = [] := by
  rcases List.singleton_eq_append_iff.mp h with ⟨hb, ha⟩ | ⟨_, ha⟩
  case inl =>
    have ⟨he, ha⟩ := List.cons.inj ha
    exact ⟨hb, he, ha⟩
  case inr => contradiction

theorem pair_eq_append_cons (h : [e, f] = before ++ e' :: after) :
    before = [] ∧ e' = e ∧ after = [f] ∨ before = [e] ∧ e' = f ∧ after = [] := by
  cases before
  case nil =>
    have ⟨he, ha⟩ := List.cons.inj h
    exact .inl ⟨rfl, he.symm, ha.symm⟩
  case cons =>
    have ⟨hf, ht⟩ := List.cons.inj h
    have ⟨hb, he, ha⟩ := singleton_eq_append_cons ht
    exact .inr ⟨by rw [hf, hb], he, ha⟩

theorem append_eq_append_cons_iff : j ++ j' = before ++ e :: after ↔
    (∃ later, j = before ++ e :: later ∧ after = later ++ j') ∨
      ∃ earlier, before = j ++ earlier ∧ j' = earlier ++ e :: after := by
  rw [List.append_eq_append_iff, or_comm]
  constructor
  case mp =>
    rintro (⟨later, rfl, he⟩ | h)
    case inr => exact .inr h
    case inl =>
      rcases List.cons_eq_append_iff.mp he with ⟨rfl, rfl⟩ | ⟨later, rfl, rfl⟩
      · exact .inr ⟨[], by simp, rfl⟩
      · exact .inl ⟨later, rfl, rfl⟩
  case mpr =>
    rintro (⟨later, rfl, rfl⟩ | h)
    · exact .inl ⟨e :: later, rfl, rfl⟩
    · exact .inr h

namespace IsOrderly

theorem nil : IsOrderly [] where
  locale  := by simp
  retries := by simp
  retried := by simp

theorem append (h : j.IsOrderly) (h' : j'.IsOrderly) : (j ++ j').IsOrderly where
  locale  := List.forall_mem_append.mpr ⟨h.locale, h'.locale⟩
  retries := by
    intro before e after he hf
    rcases append_eq_append_cons_iff.mp he with ⟨later, hj, _⟩ | ⟨earlier, rfl, hj⟩
    case inl => exact h.retries before e later hj hf
    case inr =>
      have ⟨first, f, hb, hr⟩ := h'.retries earlier e after hj hf
      exact ⟨j ++ first, f, by rw [hb, List.append_assoc], hr⟩
  retried := by
    intro before e after reason he hf hr
    rcases append_eq_append_cons_iff.mp he with ⟨later, hj, rfl⟩ | ⟨earlier, rfl, hj⟩
    case inr => exact h'.retried earlier e after reason hj hf hr
    case inl =>
      have ⟨f, last, hl, ha⟩ := h.retried before e later reason hj hf hr
      exact ⟨f, last ++ j', by rw [hl, List.cons_append], ha⟩

theorem flatMap {α : Type} {as : List α} {f : α → Journal} (h : ∀ a ∈ as, (f a).IsOrderly) :
    IsOrderly (as.flatMap f) := by
  induction as
  case nil => exact .nil
  case cons a as hi =>
    have ⟨ha, has⟩ := List.forall_mem_cons.mp h
    exact ha.append (hi has)

theorem once {run : Run} {o : Outcome} (hl : run.locale = "C") (hr : run.fromHome = false)
    (ho : ∀ reason, o ≠ .notLaunched reason) : IsOrderly [(run, o)] where
  locale  := by simpa using hl
  retries := by
    intro before e after he hf
    obtain ⟨_, rfl, _⟩ := singleton_eq_append_cons he
    simp [hr] at hf
  retried := by
    intro before e after reason he _ hn
    obtain ⟨_, rfl, _⟩ := singleton_eq_append_cons he
    exact absurd hn (ho reason)

theorem again {run : Run} (reason : String) (o : Outcome) (hl : run.locale = "C")
    (hr : run.fromHome = false) :
    IsOrderly [(run, .notLaunched reason), ({ run with fromHome := true }, o)] where
  locale  := by simpa using hl
  retries := by
    intro before e after he hf
    obtain ⟨_, rfl, _⟩ | ⟨rfl, rfl, _⟩ := pair_eq_append_cons he
    case inl => simp [hr] at hf
    case inr => exact ⟨[], _, rfl, hr, ⟨reason, rfl⟩, rfl⟩
  retried := by
    intro before e after _ he hf _
    obtain ⟨_, rfl, rfl⟩ | ⟨_, rfl, _⟩ := pair_eq_append_cons he
    case inl => exact ⟨_, [], rfl, hr, ⟨reason, rfl⟩, rfl⟩
    case inr => contradiction

end IsOrderly

end Journal

namespace Exchange.IsConducted

open Journal

variable {x : Exchange}

end Exchange.IsConducted

namespace World

variable {w : World} {past : History} {q : Question}

theorem journal_runs (w : World) (past : History) (runs : List Run) :
    (w.journal past runs).map (·.1) = runs := by
  induction runs generalizing past
  case nil => rfl
  case cons run runs hi => simp [journal, hi]

theorem made_eq {α : Type} (w : World) {x : Probing α} {runs : List Run}
    (h : (x past).2 = past ++ runs) : w.made x past = w.journal past runs := by
  rw [made, h, List.drop_left]

theorem ask_once {o : Outcome} (h : w.respond past (q.run false) = o)
    (hn : ∀ reason, o ≠ .notLaunched reason) :
    q.ask w past = (.ofOutcome q.program q.arguments o, past ++ [q.run false]) := by
  have hs : start w (q.run false) past = (o, past ++ [q.run false]) := by rw [← h, start]
  cases o
  case notLaunched reason => exact absurd rfl (hn reason)
  all_goals
    change (start w (q.run false) >>= _) past = _
    simp only [bind, StateT.bind, hs]
    rfl

theorem ask_again {reason : String} (h : w.respond past (q.run false) = .notLaunched reason) :
    q.ask w past = (.ofOutcome q.program q.arguments
      (w.respond (past ++ [q.run false]) (q.run true)), past ++ [q.run false, q.run true]) := by
  have hs : start w (q.run false) past = (.notLaunched reason, past ++ [q.run false]) := by
    rw [← h, start]
  have hp : past ++ [q.run false, q.run true] = past ++ [q.run false] ++ [q.run true] :=
    List.append_cons ..
  rw [hp]
  change (start w (q.run false) >>= _) past = _
  simp only [bind, StateT.bind, hs]
  rfl

theorem exchange_eq {a : Answer} {runs : List Run} (h : q.ask w past = (a, past ++ runs)) :
    w.exchange past q = ⟨q, w.journal past runs, a⟩ := by
  rw [exchange, w.made_eq (congrArg Prod.snd h), h]

theorem exchange_spec (w : World) (past : History) (q : Question) :
    (w.exchange past q).IsConducted ∧ ∃ runs, (q.ask w past).2 = past ++ runs ∧
      (w.exchange past q).attempts = w.journal past runs := by
  -- Only a program that could not be started is run again.
  by_cases ho : ∃ reason, w.respond past (q.run false) = .notLaunched reason
  case pos =>
    have ⟨reason, hr⟩ := ho
    have ha := ask_again hr
    rw [exchange_eq ha]
    refine ⟨?_, _, congrArg Prod.snd ha, rfl⟩
    rw [journal, journal, journal, hr]
    exact .again q reason _
  case neg =>
    have hn := not_exists.mp ho
    have ha := ask_once rfl hn
    rw [exchange_eq ha]
    exact ⟨.once q hn, _, congrArg Prod.snd ha, rfl⟩

theorem asked_append (w : World) (past : History) (qs qs' : List Question) :
    w.asked past (qs ++ qs') = w.asked (w.asked past qs) qs' :=
  List.foldl_append

theorem asked_spec (w : World) (past : History) (qs : List Question) :
    ∃ runs, w.asked past qs = past ++ runs ∧
      (w.exchanges past qs).flatMap (·.attempts) = w.journal past runs := by
  induction qs generalizing past
  case nil => exact ⟨[], (List.append_nil past).symm, rfl⟩
  case cons q qs hi =>
    have ⟨_, runs, hr, hj⟩ := w.exchange_spec past q
    have ⟨later, hl, hk⟩ := hi (q.ask w past).2
    refine ⟨runs ++ later, ?_, ?_⟩
    · rw [← List.append_assoc, ← hr]
      exact hl
    · rw [exchanges, List.flatMap_cons, hj, hk, hr, journal_append]

end World

namespace Probing

variable {α β : Type} {w : World} {x : Probing α} {f : α → Probing β}

-- The runs of a step are those that some questions take.
def Asks (w : World) (x : Probing α) : Prop :=
  ∀ past, ∃ qs, (x past).2 = w.asked past qs

namespace Asks

theorem pure (a : α) : Asks w (Pure.pure a) :=
  fun _ => ⟨[], rfl⟩

theorem bind (hx : x.Asks w) (hf : ∀ a, (f a).Asks w) : Asks w (x >>= f) := by
  intro past
  have ⟨qs, hq⟩ := hx past
  have ⟨qs', hq'⟩ := hf (x past).1 (x past).2
  refine ⟨qs ++ qs', ?_⟩
  rw [World.asked_append, ← hq]
  exact hq'

theorem ite {c : Prop} [Decidable c] {x y : Probing α} (hx : x.Asks w) (hy : y.Asks w) :
    Asks w (if c then x else y) := by
  split
  case isTrue  => exact hx
  case isFalse => exact hy

theorem query (program : String) (arguments : List String) (input : Option String) :
    (Probe.query w program arguments input).Asks w :=
  fun _ => ⟨[⟨program, arguments, input⟩], rfl⟩

theorem orElse {first second : Probing (Option α)} (hf : first.Asks w) (hs : second.Asks w) :
    (Toolchain.orElse first second).Asks w := by
  refine .bind hf fun answer => ?_
  cases answer
  case none => exact hs
  case some => exact .pure _

theorem spec (h : x.Asks w) (past : History) :
    ∃ qs, (x past).2 = w.asked past qs ∧
      w.made x past = (w.exchanges past qs).flatMap (·.attempts) ∧
      (x past).2 = past ++ (w.made x past).map (·.1) := by
  have ⟨qs, hq⟩ := h past
  have ⟨runs, hr, hj⟩ := w.asked_spec past qs
  have hm := w.made_eq (hq.trans hr)
  exact ⟨qs, hq, hm.trans hj.symm, by rw [hm, World.journal_runs, hq, hr]⟩

end Asks
end Probing

namespace Toolchain

open Probing

variable {w : World}

end Toolchain

end SourceFlags
