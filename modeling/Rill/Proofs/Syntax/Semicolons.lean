import Rill.Proofs.Syntax.Spelling

/-! Semicolons that were left out can be put back. -/
namespace Rill.Syntax

open Token (Word)

/-- A semicolon as it is written. -/
def semicolon : Word := ⟨.symbol .semicolon, ";"⟩

/-- The first words have no others than the second ones and semicolons. -/
def Among (vs ws : List Word) : Prop := ∀ v ∈ vs, v = semicolon ∨ v ∈ ws

namespace Among

theorem refl (ws : List Word) : Among ws ws := fun _ => .inr

theorem nil : Among [] [] := refl []

theorem cons {vs ws : List Word} (h : Among vs ws) (w : Word) : Among (w :: vs) (w :: ws) := by
  intro v hv
  rcases List.mem_cons.mp hv with rfl | hv
  · exact .inr List.mem_cons_self
  · exact (h v hv).imp_right (List.mem_cons_of_mem w)

theorem append {us vs ws xs : List Word} (h : Among us vs) (h' : Among ws xs) :
    Among (us ++ ws) (vs ++ xs) := by
  intro v hv
  rcases List.mem_append.mp hv with hv | hv
  · exact (h v hv).imp_right (List.mem_append_left xs)
  · exact (h' v hv).imp_right (List.mem_append_right vs)

/-- One more semicolon. -/
theorem semicolon_cons {vs ws : List Word} (h : Among vs ws) : Among (semicolon :: vs) ws := by
  intro v hv
  rcases List.mem_cons.mp hv with rfl | hv
  · exact .inl rfl
  · exact h v hv

end Among

theorem Semicolons.ended {ws : List Word} (h : Semicolons 0 ws) :
    Semicolons 1 (semicolon :: ws) := by
  refine ⟨Nat.succ_le_succ h.1, fun w hw => ?_⟩
  rcases List.mem_cons.mp hw with rfl | hw
  · rfl
  · exact h.2 w hw

mutual

theorem Expr.Spelled.ended {e : Expr} {ws : List Word} (h : e.Spelled 0 ws) :
    ∃ vs, e.Spelled 1 vs ∧ Among vs ws := by
  match h with
  | .int => exact ⟨_, .int, .refl _⟩
  | .float => exact ⟨_, .float, .refl _⟩
  | .string => exact ⟨_, .string, .refl _⟩
  | .var => exact ⟨_, .var, .refl _⟩
  | .trueWord => exact ⟨_, .trueWord, .refl _⟩
  | .falseWord => exact ⟨_, .falseWord, .refl _⟩
  | .nullWord => exact ⟨_, .nullWord, .refl _⟩
  | .group h =>
    obtain ⟨_, h, hws⟩ := h.ended
    exact ⟨_, .group h, (hws.cons _).append (.refl _)⟩
  | .unary hop h =>
    obtain ⟨_, h, hws⟩ := h.ended
    exact ⟨_, .unary hop h, hws.cons _⟩
  | .binary hop hl hr =>
    obtain ⟨_, hl, hvs⟩ := hl.ended
    obtain ⟨_, hr, hws⟩ := hr.ended
    exact ⟨_, .binary hop hl hr, hvs.append (hws.cons _)⟩
  | .logic hop hl hr =>
    obtain ⟨_, hl, hvs⟩ := hl.ended
    obtain ⟨_, hr, hws⟩ := hr.ended
    exact ⟨_, .logic hop hl hr, hvs.append (hws.cons _)⟩
  | .assign hop ht he =>
    obtain ⟨_, ht, hvs⟩ := ht.ended
    obtain ⟨_, he, hws⟩ := he.ended
    exact ⟨_, .assign hop ht he, hvs.append (hws.cons _)⟩
  | .call hf hes =>
    obtain ⟨_, hf, hvs⟩ := hf.ended
    obtain ⟨_, hes, hws⟩ := hes.ended
    exact ⟨_, .call hf hes, (hvs.append (hws.cons _)).append (.refl _)⟩
  | .create ht hes =>
    obtain ⟨_, ht, hvs⟩ := ht.ended
    obtain ⟨_, hes, hws⟩ := hes.ended
    exact ⟨_, .create ht hes, ((hvs.cons _).append (hws.cons _)).append (.refl _)⟩
  | .subscript ho hi =>
    obtain ⟨_, ho, hvs⟩ := ho.ended
    obtain ⟨_, hi, hws⟩ := hi.ended
    exact ⟨_, .subscript ho hi, (hvs.append (hws.cons _)).append (.refl _)⟩
  | .attr ho =>
    obtain ⟨_, ho, hvs⟩ := ho.ended
    exact ⟨_, .attr ho, hvs.append (.refl _)⟩
  | .function hname hd =>
    obtain ⟨_, hd, hws⟩ := hd.ended
    exact ⟨_, .function hname hd, hws.cons _⟩
  | .list hes =>
    obtain ⟨_, hes, hws⟩ := hes.ended
    exact ⟨_, .list hes, (hws.cons _).append (.refl _)⟩
  | .dict hes =>
    obtain ⟨_, hes, hws⟩ := hes.ended
    exact ⟨_, .dict hes, (hws.cons _).append (.refl _)⟩

theorem ClassSpelled.ended {e : Expr} {ws : List Word} (h : ClassSpelled 0 e ws) :
    ∃ vs, ClassSpelled 1 e vs ∧ Among vs ws := by
  match h with
  | .var => exact ⟨_, .var, .refl _⟩
  | .group h =>
    obtain ⟨_, h, hws⟩ := h.ended
    exact ⟨_, .group h, (hws.cons _).append (.refl _)⟩
  | .attr ho =>
    obtain ⟨_, ho, hvs⟩ := ho.ended
    exact ⟨_, .attr ho, hvs.append (.refl _)⟩

theorem SequenceSpelled.ended {e : Expr} {ws : List Word} (h : SequenceSpelled 0 e ws) :
    ∃ vs, SequenceSpelled 1 e vs ∧ Among vs ws := by
  match h with
  | .one h =>
    obtain ⟨_, h, hws⟩ := h.ended
    exact ⟨_, .one h, hws⟩
  | .many hne h hes =>
    obtain ⟨_, h, hvs⟩ := h.ended
    obtain ⟨_, hes, hws⟩ := hes.ended
    exact ⟨_, .many hne h hes, hvs.append hws⟩

theorem PartsSpelled.ended {es : List Expr} {ws : List Word} (h : PartsSpelled 0 es ws) :
    ∃ vs, PartsSpelled 1 es vs ∧ Among vs ws := by
  match h with
  | .nil => exact ⟨_, .nil, .nil⟩
  | .cons h hes =>
    obtain ⟨_, h, hvs⟩ := h.ended
    obtain ⟨_, hes, hws⟩ := hes.ended
    exact ⟨_, .cons h hes, (hvs.cons _).append hws⟩

theorem ItemsSpelled.ended {es : List Expr} {ws : List Word} (h : ItemsSpelled 0 es ws) :
    ∃ vs, ItemsSpelled 1 es vs ∧ Among vs ws := by
  match h with
  | .nil => exact ⟨_, .nil, .nil⟩
  | .last h =>
    obtain ⟨_, h, hws⟩ := h.ended
    exact ⟨_, .last h, hws⟩
  | .cons h hes =>
    obtain ⟨_, h, hvs⟩ := h.ended
    obtain ⟨_, hes, hws⟩ := hes.ended
    exact ⟨_, .cons h hes, hvs.append (hws.cons _)⟩

theorem EntriesSpelled.ended {es : List (Expr × Expr)} {ws : List Word} (h : EntriesSpelled 0 es ws) :
    ∃ vs, EntriesSpelled 1 es vs ∧ Among vs ws := by
  match h with
  | .nil => exact ⟨_, .nil, .nil⟩
  | .last hk hv =>
    obtain ⟨_, hk, hus⟩ := hk.ended
    obtain ⟨_, hv, hvs⟩ := hv.ended
    exact ⟨_, .last hk hv, hus.append (hvs.cons _)⟩
  | .cons hk hv hes =>
    obtain ⟨_, hk, hus⟩ := hk.ended
    obtain ⟨_, hv, hvs⟩ := hv.ended
    obtain ⟨_, hes, hws⟩ := hes.ended
    exact ⟨_, .cons hk hv hes, (hus.append (hvs.cons _)).append (hws.cons _)⟩

theorem FunctionSpelled.ended {d : FunctionDecl} {ws : List Word} (h : FunctionSpelled 0 d ws) :
    ∃ vs, FunctionSpelled 1 d vs ∧ Among vs ws := by
  match h with
  | .mk hnames hbody =>
    obtain ⟨_, hbody, hws⟩ := hbody.ended
    exact ⟨_, .mk hnames hbody, ((Among.refl _).cons _).append (hws.cons _)⟩

theorem BlockSpelled.ended {body : List Stmt} {ws : List Word} (h : BlockSpelled 0 body ws) :
    ∃ vs, BlockSpelled 1 body vs ∧ Among vs ws := by
  match h with
  | .mk hvs hbody =>
    obtain ⟨_, hbody, hws⟩ := hbody.ended
    exact ⟨_, .mk hvs hbody, (((Among.refl _).cons _).append hws).append (.refl _)⟩

theorem BodySpelled.ended {body : List Stmt} {ws : List Word} (h : BodySpelled 0 body ws) :
    ∃ vs, BodySpelled 1 body vs ∧ Among vs ws := by
  match h with
  | .nil => exact ⟨_, .nil, .nil⟩
  | .cons hs hvs hss =>
    obtain ⟨_, hs, hus⟩ := hs.ended
    obtain ⟨_, hss, hws⟩ := hss.ended
    exact ⟨_, .cons hs hvs.ended hss, (hus.append (Among.refl _).semicolon_cons).append hws⟩

theorem OptionSpelled.ended {e : Option Expr} {ws : List Word} (h : OptionSpelled 0 e ws) :
    ∃ vs, OptionSpelled 1 e vs ∧ Among vs ws := by
  match h with
  | .none => exact ⟨_, .none, .nil⟩
  | .some h =>
    obtain ⟨_, h, hws⟩ := h.ended
    exact ⟨_, .some h, hws⟩

theorem Stmt.Spelled.ended {s : Stmt} {ws : List Word} (h : s.Spelled 0 ws) :
    ∃ vs, s.Spelled 1 vs ∧ Among vs ws := by
  match h with
  | .functionDecl hd =>
    obtain ⟨_, hd, hws⟩ := hd.ended
    exact ⟨_, .functionDecl hd, (hws.cons _).cons _⟩
  | .moduleDecl hbody =>
    obtain ⟨_, hbody, hws⟩ := hbody.ended
    exact ⟨_, .moduleDecl hbody, (hws.cons _).cons _⟩
  | .classDecl hbody =>
    obtain ⟨_, hbody, hws⟩ := hbody.ended
    exact ⟨_, .classDecl hbody, (hws.cons _).cons _⟩
  | .subclassDecl h hbody =>
    obtain ⟨_, h, hvs⟩ := h.ended
    obtain ⟨_, hbody, hws⟩ := hbody.ended
    exact ⟨_, .subclassDecl h hbody, (((hvs.cons _).cons _).cons _).append (hws.cons _)⟩
  | .includeFile => exact ⟨_, .includeFile, .refl _⟩
  | .expr h =>
    obtain ⟨_, h, hws⟩ := h.ended
    exact ⟨_, .expr h, hws⟩
  | .ifOnly h hyes =>
    obtain ⟨_, h, hvs⟩ := h.ended
    obtain ⟨_, hyes, hws⟩ := hyes.ended
    exact ⟨_, .ifOnly h hyes, (hvs.cons _).append hws⟩
  | .ifElse h hyes hno =>
    obtain ⟨_, h, hus⟩ := h.ended
    obtain ⟨_, hyes, hvs⟩ := hyes.ended
    obtain ⟨_, hno, hws⟩ := hno.ended
    exact ⟨_, .ifElse h hyes hno, ((hus.cons _).append hvs).append (hws.cons _)⟩
  | .elseIf h hyes hno =>
    obtain ⟨_, h, hus⟩ := h.ended
    obtain ⟨_, hyes, hvs⟩ := hyes.ended
    obtain ⟨_, hno, hws⟩ := hno.ended
    exact ⟨_, .elseIf h hyes hno, ((hus.cons _).append hvs).append (hws.cons _)⟩
  | .whileLoop h hbody =>
    obtain ⟨_, h, hvs⟩ := h.ended
    obtain ⟨_, hbody, hws⟩ := hbody.ended
    exact ⟨_, .whileLoop h hbody, (hvs.cons _).append hws⟩
  | .doWhile hbody h =>
    obtain ⟨_, hbody, hvs⟩ := hbody.ended
    obtain ⟨_, h, hws⟩ := h.ended
    exact ⟨_, .doWhile hbody h, (hvs.cons _).append (hws.cons _)⟩
  | .forLoop hi hc hp hbody =>
    obtain ⟨_, hi, hus⟩ := hi.ended
    obtain ⟨_, hc, hvs⟩ := hc.ended
    obtain ⟨_, hp, hws⟩ := hp.ended
    obtain ⟨_, hbody, hxs⟩ := hbody.ended
    exact ⟨_, .forLoop hi hc hp hbody,
      ((((hus.cons _).cons _).append (hvs.cons _)).append (hws.cons _)).append (hxs.cons _)⟩
  | .forEach h hbody =>
    obtain ⟨_, h, hvs⟩ := h.ended
    obtain ⟨_, hbody, hws⟩ := hbody.ended
    exact ⟨_, .forEach h hbody, (((hvs.cons _).cons _).cons _).append hws⟩
  | .breakLoop => exact ⟨_, .breakLoop, .refl _⟩
  | .continueLoop => exact ⟨_, .continueLoop, .refl _⟩
  | .returnNone => exact ⟨_, .returnNone, .refl _⟩
  | .returnSome h =>
    obtain ⟨_, h, hws⟩ := h.ended
    exact ⟨_, .returnSome h, hws.cons _⟩

end

/-- A program can be spelled with a semicolon after every statement. -/
theorem Program.Spelled.ended {p : Program} {ws : List Word} (h : p.Spelled 0 ws) :
    ∃ vs, p.Spelled 1 vs ∧ Among vs ws := by
  obtain ⟨us, _, hus, hbody, rfl⟩ := h
  obtain ⟨vs, hbody, hvs⟩ := hbody.ended
  exact ⟨_, ⟨us, vs, hus, hbody, rfl⟩, (Among.refl us).append hvs⟩

end Rill.Syntax
