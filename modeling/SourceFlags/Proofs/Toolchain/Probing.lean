import SourceFlags.Proofs.World.Steady
import SourceFlags.Toolchain.Setup

namespace SourceFlags
namespace Probing

variable {α β : Type} {x : Probing α} {f : α → Probing β} {P : α → Prop} {Q : β → Prop}

def Always (x : Probing α) (P : α → Prop) : Prop :=
  ∀ past, P (x past).1

def told (x : Probing α) : α :=
  (x []).1

def Steady (x : Probing α) : Prop :=
  x.Always (· = x.told)

theorem told_map {α β : Type} (g : α → β) (x : Probing α) : told (g <$> x) = g x.told :=
  rfl

namespace Always

theorem pure {a : α} (h : P a) : Always (Pure.pure a) P :=
  fun _ => h

theorem bind (hx : x.Always P) (hf : ∀ a, P a → (f a).Always Q) : Always (x >>= f) Q :=
  fun past => hf _ (hx past) (x past).2

theorem of_any (hf : ∀ a, (f a).Always Q) : Always (x >>= f) Q :=
  fun past => hf _ (x past).2

end Always

namespace Steady

theorem pure (a : α) : Steady (Pure.pure a) :=
  fun _ => rfl

theorem told_bind (hf : ∀ a, (f a).Steady) : told (x >>= f) = (f x.told).told :=
  hf _ _

theorem bind (hx : x.Steady) (hf : ∀ a, (f a).Steady) : Steady (x >>= f) := by
  intro past
  rw [told_bind hf, ← hx past]
  exact hf _ _

theorem ite {c : Prop} [Decidable c] {x y : Probing α} (hx : x.Steady) (hy : y.Steady) :
    Steady (if c then x else y) := by
  split
  case isTrue  => exact hx
  case isFalse => exact hy

end Steady
end Probing

open Probing

namespace World.IsSteady

variable {w : World} (h : w.IsSteady)

include h

theorem start (run : Run) : (Probe.start w run).Steady :=
  fun past => h past [] run

theorem query (program : String) (arguments : List String) (input : Option String) :
    (Probe.query w program arguments input).Steady := by
  refine .bind (h.start _) fun outcome => ?_
  cases outcome
  case notLaunched => exact .bind (h.start _) fun _ => .pure _
  all_goals exact .pure _

theorem fields (s : Settings) (program : String) : (Probe.fields w s program).Steady :=
  .bind (h.query _ _ _) fun _ => .pure _

theorem includePaths (s : Settings) (language program : String) :
    (Probe.includePaths w s language program).Steady :=
  .bind (h.query _ _ _) fun _ => .pure _

theorem macros (s : Settings) (language program : String) :
    (Probe.macros w s language program).Steady :=
  .bind (h.query _ _ _) fun _ => .pure _

theorem sourceMacros (s : Settings) (directives : List String) (language : String)
    (extra : List String) (program : String) :
    (Probe.sourceMacros w s directives language extra program).Steady :=
  .bind (h.query _ _ _) fun _ => .pure _

omit h in
theorem orElse {α : Type} {first second : Probing (Option α)} (hf : first.Steady)
    (hs : second.Steady) : (Toolchain.orElse first second).Steady := by
  refine .bind hf fun answer => ?_
  cases answer
  case none => exact hs
  case some => exact .pure _

theorem addPredefined (t : Toolchain) (f : Facts) : (t.addPredefined w f).Steady :=
  .bind (orElse (h.macros _ _ _) (h.macros _ _ _)) fun _ => .pure _

theorem searchLists (s : Settings) (f : Facts) : (Toolchain.searchLists w s f).Steady :=
  .bind (h.includePaths _ _ _) fun _ => .bind (h.includePaths _ _ _) fun _ =>
    .ite (.pure _) (.pure _)

theorem populate (t : Toolchain) (f : Facts) : (t.populate w f).Steady :=
  .bind (h.fields _ _) fun _ => .bind (h.addPredefined _ _) fun _ =>
    .bind (h.searchLists _ _) fun _ => .pure _

theorem addSymbolMacros (t : Toolchain) (f : Facts) : (t.addSymbolMacros w f).Steady :=
  .ite (.pure _) <| .bind (orElse (h.sourceMacros _ _ _ _ _) (h.sourceMacros _ _ _ _ _))
    fun _ => .pure _

theorem repopulate (t : Toolchain) (f : Facts) : (t.repopulate w f).Steady :=
  .bind (h.populate _ _) fun _ => h.addSymbolMacros _ _

end World.IsSteady
end SourceFlags
