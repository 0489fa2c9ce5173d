import Rill.Proofs.Syntax.Completeness.Blocks

/-! Expressions with their operators in order are read from the words that spell them. -/
namespace Rill.Syntax

open Token (Word Kind)
open Rill.Syntax.Parser

namespace Grammar

variable {g : Grammar} {size : Nat} {ws rest : List Word}

/-! ### Classes -/

theorem takes_attributeRest {object o : Expr} (ho : o.bare = object.bare) {name : String}
    {s span : Text.Span} : Takes (attributeRest o) (⟨.ident, name⟩ :: rest) rest fun e =>
      e.bare = (Expr.attr object ⟨name, s⟩ span).bare :=
  .bind takes_ident fun n hn => .pure (by rw [Expr.bare, Expr.bare, ho, hn]; rfl)

/-- Reading a class comes to where all of `type` has been read. -/
theorem takes_classExpr_of_path (hg : g.Reads size) {type : Expr} (hs : ClassSpelled 1 type ws)
    (ho : type.Ordered) (hsize : ws.length ≤ size) {final : List Word} {Q : Expr → Prop}
    (hpath : ∀ type', type'.bare = type.bare → ∀ room, rest.length ≤ room →
      Takes (classPath room type') rest final Q) :
    Takes (classExpr g) (ws ++ rest) final Q := by
  induction hn : ws.length using Nat.strongRecOn generalizing type ws rest with
  | ind n ih =>
    subst hn
    cases hs with
    | @var t s =>
      refine .bind ?_ fun head hhead => .bind takes_remaining fun n hn =>
        hpath head hhead n (Nat.le_of_eq hn.symm)
      refine .token fun span => ?_
      exact .pure rfl
    | @group e s t u ws he =>
      simp only [List.length_append, List.length_cons] at hsize
      simp only [List.append_assoc, List.cons_append, List.nil_append]
      refine .bind ?_ fun head hhead => .bind takes_remaining fun n hn =>
        hpath head hhead n (Nat.le_of_eq hn.symm)
      refine .token fun span => ?_
      refine .bind (hg.inner he ho (by omega) rfl) fun e' he' => .bind takes_symbol fun _ _ => ?_
      exact .pure (by simp [Expr.bare, he'])
    | @attr o n s s' t vs hs =>
      simp only [List.length_append, List.length_cons] at hsize
      simp only [List.append_assoc, List.cons_append, List.nil_append]
      refine ih vs.length (by simp) hs ho.2 (by omega) (fun o' ho' room hroom => ?_) rfl
      obtain ⟨room, rfl⟩ := Nat.exists_eq_add_one_of_ne_zero (n := room) (by simp at hroom; omega)
      refine .bind takes_skip fun found hfound => ?_
      subst hfound
      refine .bind (takes_attributeRest ho') fun e he => hpath e he room ?_
      simp only [List.length_cons] at hroom
      omega

theorem takes_classExpr (hg : g.Reads size) {type : Expr} (hs : ClassSpelled 1 type ws)
    (ho : type.Ordered) (hsize : ws.length ≤ size) (hrest : firstKind rest ≠ .symbol .dot) :
    Takes (classExpr g) (ws ++ rest) rest fun e => e.bare = type.bare := by
  refine takes_classExpr_of_path hg hs ho hsize fun type' htype room _ => ?_
  cases room with
  | zero => exact .pure htype
  | succ room =>
    refine .bind (takes_skip_false hrest) fun found hfound => ?_
    subst hfound
    exact .pure htype

/-! ### Operators -/

theorem suffix_none_of_binary {k : Kind} {op : BinaryOp} (h : BinaryOp.ofKind? k = some op) :
    Suffix.ofKind? k = none := by
  unfold BinaryOp.ofKind? at h
  split at h <;> first | rfl | cases h

theorem none_of_logic {k : Kind} {op : LogicOp} (h : LogicOp.ofKind? k = some op) :
    Suffix.ofKind? k = none ∧ BinaryOp.ofKind? k = none := by
  unfold LogicOp.ofKind? at h
  split at h <;> first | exact ⟨rfl, rfl⟩ | cases h

theorem none_of_assign {k : Kind} {op : AssignOp} (h : AssignOp.ofKind? k = some op) :
    Suffix.ofKind? k = none ∧ BinaryOp.ofKind? k = none ∧ LogicOp.ofKind? k = none := by
  unfold AssignOp.ofKind? at h
  split at h <;> first | exact ⟨rfl, rfl, rfl⟩ | cases h

theorem extension?_suffix {lhs : Expr} {token : Token} {suffix : Suffix}
    (h : token.kind = .symbol suffix.symbol) :
    extension? g lhs token = some (Suffix.power, suffixRest g suffix lhs) := by
  unfold extension?
  rw [Suffix.ofKind?_eq_some.mpr h]

theorem extension?_binary {lhs : Expr} {token : Token} {op : BinaryOp}
    (h : BinaryOp.ofKind? token.kind = some op) :
    extension? g lhs token = some (op.power.1, do
      let rhs ← g.expression op.power.2
      return .binary op lhs rhs (lhs.span.merge rhs.span)) := by
  unfold extension?
  rw [suffix_none_of_binary h, h]

theorem extension?_logic {lhs : Expr} {token : Token} {op : LogicOp}
    (h : LogicOp.ofKind? token.kind = some op) :
    extension? g lhs token = some (op.power.1, do
      let rhs ← g.expression op.power.2
      return .logic op lhs rhs (lhs.span.merge rhs.span)) := by
  obtain ⟨hsuffix, hbinary⟩ := none_of_logic h
  unfold extension?
  rw [hsuffix, hbinary, h]

theorem extension?_assign {lhs : Expr} {token : Token} {op : AssignOp} {target : Target}
    (h : AssignOp.ofKind? token.kind = some op) (ht : lhs.target? = some target) :
    extension? g lhs token = some (AssignOp.power.1, do
      let rhs ← g.expression AssignOp.power.2
      return .assign op target rhs (lhs.span.merge rhs.span)) := by
  obtain ⟨hsuffix, hbinary, hlogic⟩ := none_of_assign h
  unfold extension?
  rw [hsuffix, hbinary, hlogic, h, ht]

/-- Without an operator that binds tightly enough, the expression ends. -/
theorem takes_extend_of_stops {power : Nat} (h : Stops power rest) (room : Nat) (e : Expr) :
    Takes (extend g power room e) rest rest fun e' => e' = e := by
  cases room with
  | zero => exact .pure rfl
  | succ room =>
    refine .bind takes_peek fun token htoken => ?_
    have hpower := map_extension? g e token
    rw [htoken] at hpower
    split
    next => exact .pure rfl
    next q reader hsome =>
      rw [hsome] at hpower
      rw [if_pos (h q hpower.symm)]
      exact .pure rfl

/-- An operator that binds tightly enough extends the expression. -/
theorem takes_extend {power q : Nat} {w : Word} {mid final : List Word} {e : Expr}
    {R Q : Expr → Prop} (hq : power ≤ q)
    (hextends : ∀ token : Token, token.kind = w.kind → ∃ reader,
      extension? g e token = some (q, reader) ∧ Takes reader (ws ++ mid) mid R)
    (hmore : ∀ e', R e' → ∀ room, mid.length ≤ room →
      Takes (extend g power room e') mid final Q) {room : Nat}
    (hroom : (w :: (ws ++ mid)).length ≤ room) :
    Takes (extend g power room e) (w :: (ws ++ mid)) final Q := by
  simp only [List.length_cons, List.length_append] at hroom
  obtain ⟨room, rfl⟩ := Nat.exists_eq_add_one_of_ne_zero (n := room) (by omega)
  refine .bind takes_peek fun token htoken => ?_
  obtain ⟨reader, hsome, hreader⟩ := hextends token htoken
  rw [hsome]
  dsimp only
  rw [if_neg (Nat.not_lt.mpr hq)]
  refine .bind takes_next fun _ _ => .bind hreader fun e' he' => hmore e' he' room ?_
  omega

/-- Reading an expression comes to where all of `e` has been read, and what follows decides how it
goes on. -/
def Lands (g : Grammar) (power : Nat) (e : Expr) (ws rest : List Word) : Prop :=
  ∀ (final : List Word) (Q : Expr → Prop), (∀ e', e'.bare = e.bare → ∀ room, rest.length ≤ room →
      Takes (extend g power room e') rest final Q) →
    Takes (expressionRule g power) (ws ++ rest) final Q

theorem lands_of_operand {power : Nat} {e : Expr}
    (h : Takes (operand g) (ws ++ rest) rest fun e' => e'.bare = e.bare) :
    Lands g power e ws rest := by
  intro final Q hmore
  refine .bind h fun e' he' => .bind takes_remaining fun n hn => ?_
  exact hmore e' he' n (Nat.le_of_eq hn.symm)

theorem takes_createRest (hg : g.Reads size) {type : Expr} {es : List Expr} {vs : List Word}
    {t u : String} {span : Text.Span} (htype : ClassSpelled 1 type vs) (ho : type.Ordered)
    (hes : ItemsSpelled 1 es ws) (hos : AllOrdered es) (hsize : vs.length + ws.length ≤ size)
    (start : Text.Span) :
    Takes (createRest g start)
      (vs ++ ⟨.symbol .leftParen, t⟩ :: (ws ++ ⟨.symbol .rightParen, u⟩ :: rest)) rest fun e =>
      e.bare = (Expr.create type es span).bare := by
  refine .bind (takes_classExpr hg htype ho (by omega) nofun) fun type' htype' => ?_
  refine .bind takes_symbol fun _ _ => ?_
  refine .bind (takes_delimited hg hes hos (by omega) closing_rightParen) fun r hr => .pure ?_
  simp [Expr.bare, htype', hr]

theorem takes_suffixRest_call (hg : g.Reads size) {f f' : Expr} (hf : f'.bare = f.bare)
    {es : List Expr} (hes : ItemsSpelled 1 es ws) (hos : AllOrdered es) (hsize : ws.length ≤ size)
    {t : String} {span : Text.Span} :
    Takes (suffixRest g .call f') (ws ++ ⟨.symbol .rightParen, t⟩ :: rest) rest fun e =>
      e.bare = (Expr.call f es span).bare := by
  refine .bind (takes_delimited hg hes hos hsize closing_rightParen) fun r hr => .pure ?_
  simp [Expr.bare, hf, hr]

theorem takes_suffixRest_subscript (hg : g.Reads size) {o o' : Expr} (ho : o'.bare = o.bare)
    {i : Expr} (hi : i.Spelled 1 ws) (hoi : i.Ordered) (hsize : ws.length ≤ size) {t : String}
    {span : Text.Span} :
    Takes (suffixRest g .subscript o') (ws ++ ⟨.symbol .rightBracket, t⟩ :: rest) rest fun e =>
      e.bare = (Expr.subscript o i span).bare := by
  refine .bind (hg.inner hi hoi hsize rfl) fun i' hi' => .bind takes_symbol fun _ _ => .pure ?_
  simp [Expr.bare, ho, hi']

theorem leftPower?_binary {k : Kind} {op : BinaryOp} (h : BinaryOp.ofKind? k = some op) :
    k.leftPower? = some op.power.1 := by
  unfold Kind.leftPower?
  rw [suffix_none_of_binary h, h]

theorem leftPower?_logic {k : Kind} {op : LogicOp} (h : LogicOp.ofKind? k = some op) :
    k.leftPower? = some op.power.1 := by
  obtain ⟨hsuffix, hbinary⟩ := none_of_logic h
  unfold Kind.leftPower?
  rw [hsuffix, hbinary, h]

/-- What comes before an operator that takes it ends there. -/
theorem stops_of_leftPower? {w : Word} {q p : Nat} (hw : w.kind.leftPower? = some q) (h : q < p) :
    Stops p (w :: rest) := by
  intro q' hq'
  rw [firstKind_cons, hw] at hq'
  cases hq'
  exact h

/-- A suffix takes all that comes before it. -/
theorem lands_suffix (suffix : Suffix) {power : Nat} {o e : Expr} {vs : List Word} {t : String}
    (hpower : power ≤ Suffix.power)
    (ho : Lands g power o vs (⟨.symbol suffix.symbol, t⟩ :: (ws ++ rest)))
    (hrest : ∀ o', o'.bare = o.bare →
      Takes (suffixRest g suffix o') (ws ++ rest) rest fun e' => e'.bare = e.bare) :
    Lands g power e (vs ++ ⟨.symbol suffix.symbol, t⟩ :: ws) rest := by
  intro final Q hmore
  rw [List.append_assoc, List.cons_append]
  refine ho final Q fun o' ho' room hroom => ?_
  exact takes_extend hpower (fun token htoken => ⟨_, extension?_suffix htoken, hrest o' ho'⟩)
    hmore hroom

/-- An operator takes what comes before it, and the operand that its right power allows. -/
theorem lands_between {power : Nat} {powers : Nat × Nat} {l r e : Expr} {vs : List Word} {w : Word}
    (hg : g.Reads size) (hpower : power ≤ powers.1) (hr : r.Spelled 1 ws) (ho : r.Ordered)
    (hsize : ws.length ≤ size) (hle : powers.2 ≤ Suffix.power)
    (hleft : ∀ p ∈ r.leftPowers, powers.2 ≤ p)
    (hright : ∀ p ∈ powers.2 :: r.rightPowers, Stops p rest)
    (hl : Lands g power l vs (w :: (ws ++ rest)))
    (hextends : ∀ l', l'.bare = l.bare → ∀ token : Token, token.kind = w.kind → ∃ f,
      extension? g l' token = some (powers.1, g.expression powers.2 >>= f) ∧
      ∀ r', r'.bare = r.bare → Takes (f r') rest rest fun e' => e'.bare = e.bare) :
    Lands g power e (vs ++ w :: ws) rest := by
  intro final Q hmore
  rw [List.append_assoc, List.cons_append]
  refine hl final Q fun l' hl' room hroom => ?_
  refine takes_extend hpower (fun token htoken => ?_) hmore hroom
  obtain ⟨f, hsome, hf⟩ := hextends l' hl' token htoken
  exact ⟨_, hsome, .bind (hg.expression hr ho hsize hle hleft hright) hf⟩

theorem lands (hg : g.Reads size) {power : Nat} {e : Expr} (hs : e.Spelled 1 ws) (ho : e.Ordered)
    (hsize : ws.length ≤ size + 1) (hpower : power ≤ Suffix.power)
    (hleft : ∀ p ∈ e.leftPowers, power ≤ p) (hright : ∀ p ∈ e.rightPowers, Stops p rest) :
    Lands g power e ws rest := by
  -- the left operand of an operator comes first, and is read by the same rule
  induction hn : ws.length using Nat.strongRecOn generalizing e ws rest with
  | ind n ih =>
    subst hn
    have htight {o : Expr} {vs us : List Word} (hs : o.Spelled 1 vs) (ho : o.Ordered)
        (ht : o.isTight) (hlt : vs.length < ws.length) : Lands g power o vs us := by
      refine ih vs.length hlt hs ho (by omega) ?_ ?_ rfl
      · simp [Expr.leftPowers_eq_nil ht]
      · simp [Expr.rightPowers_eq_nil ht]
    cases hs with
    | int => exact lands_of_operand (.token fun _ => .pure (by rw [Token.intValue_eq_numeral]; rfl))
    | float | string | var | trueWord | falseWord | nullWord =>
      exact lands_of_operand (.token fun _ => .pure rfl)
    | group he =>
      simp only [List.length_append, List.length_cons] at hsize
      refine lands_of_operand ?_
      simp only [List.append_assoc, List.cons_append, List.nil_append]
      refine .token fun _ => ?_
      refine .bind (takes_innerSequence hg he ho (by omega) closing_rightParen) fun e' he' => ?_
      exact .bind takes_symbol fun _ _ => .pure (by simp [Expr.bare, he'])
    | @unary op x s k t ws hop hx =>
      simp only [List.length_cons] at hsize
      have htake := hg.expression hx ho.2 (by omega) (by decide) ho.1 hright
      refine lands_of_operand ?_
      cases op <;> cases List.mem_singleton.mp hop <;>
        exact .token fun _ => .bind htake fun x' hx' => .pure (by simp [Expr.bare, hx'])
    | list hes =>
      simp only [List.length_append, List.length_cons] at hsize
      refine lands_of_operand ?_
      simp only [List.append_assoc, List.cons_append, List.nil_append]
      refine .token fun _ => ?_
      refine .bind (takes_delimited hg hes ho (by omega) closing_rightBracket) fun r hr => ?_
      exact .pure (by simp [Expr.bare, hr])
    | @dict es s t u ws hes =>
      simp only [List.length_append, List.length_cons] at hsize
      refine lands_of_operand ?_
      simp only [List.append_assoc, List.cons_append, List.nil_append]
      refine .token fun _ => .bind takes_remaining fun n hn => ?_
      subst hn
      have hroom : ws.length < (ws ++ (⟨.symbol .rightBrace, u⟩ : Word) :: rest).length := by simp
      refine .bind (takes_dictEntries hg hes ho (by omega) hroom []) fun r hr => .pure ?_
      obtain ⟨es', hr, hes'⟩ := hr
      simp [Expr.bare, hr, hes']
    | function hname hd =>
      simp only [List.length_cons] at hsize
      refine lands_of_operand (.token fun span => ?_)
      refine .bind (takes_functionRest hg hd ho (by omega) ?_ span) fun d' hd' => .pure ?_
      · rw [Ident.bare, Ident.bare, hname]
      · rw [Expr.bare, Expr.bare, hd']
    | create htype hes =>
      simp only [List.length_append, List.length_cons] at hsize
      refine lands_of_operand ?_
      simp only [List.append_assoc, List.cons_append, List.nil_append]
      exact .token fun span => takes_createRest hg htype ho.2.1 hes ho.2.2 (by omega) span
    | @call f es s t u vs ws hf hes =>
      simp only [List.length_append, List.length_cons] at hsize
      rw [List.append_assoc, List.cons_append]
      refine lands_suffix .call hpower (htight hf ho.2.1 ho.1 (by simp)) ?_
      intro f' hf'
      rw [List.append_assoc]
      exact takes_suffixRest_call hg hf' hes ho.2.2 (by omega)
    | @subscript o i s t u vs ws hobj hi =>
      simp only [List.length_append, List.length_cons] at hsize
      rw [List.append_assoc, List.cons_append]
      refine lands_suffix .subscript hpower (htight hobj ho.2.1 ho.1 (by simp)) ?_
      intro o' ho'
      rw [List.append_assoc]
      exact takes_suffixRest_subscript hg ho' hi ho.2.2 (by omega)
    | @attr o n s s' t vs hobj =>
      refine lands_suffix .dot hpower (htight hobj ho.2 ho.1 (by simp)) ?_
      exact fun o' ho' => takes_attributeRest ho'
    | @binary op l r s k t vs ws hop hl hr =>
      have hkind := BinaryOp.ofKind?_iff.mpr hop
      obtain ⟨⟨hfl, hfr⟩, hol, hor⟩ := ho
      simp only [List.length_append, List.length_cons] at hsize
      have hland : Lands g power l vs (⟨k, t⟩ :: (ws ++ rest)) := ih vs.length (by simp) hl hol
        (by omega) (fun p hp => hleft p (List.mem_cons_of_mem _ hp))
        (fun p hp => stops_of_leftPower? (leftPower?_binary hkind) (hfl p hp)) rfl
      refine lands_between hg (hleft _ List.mem_cons_self) hr hor (by omega)
        (by cases op <;> decide) hfr hright hland fun l' hl' token htoken => ?_
      refine ⟨_, extension?_binary (by rw [htoken]; exact hkind), fun r' hr' => .pure ?_⟩
      simp [Expr.bare, hl', hr']
    | @logic op l r s k t vs ws hop hl hr =>
      have hkind := LogicOp.ofKind?_iff.mpr hop
      obtain ⟨⟨hfl, hfr⟩, hol, hor⟩ := ho
      simp only [List.length_append, List.length_cons] at hsize
      have hland : Lands g power l vs (⟨k, t⟩ :: (ws ++ rest)) := ih vs.length (by simp) hl hol
        (by omega) (fun p hp => hleft p (List.mem_cons_of_mem _ hp))
        (fun p hp => stops_of_leftPower? (leftPower?_logic hkind) (hfl p hp)) rfl
      refine lands_between hg (hleft _ List.mem_cons_self) hr hor (by omega)
        (by cases op <;> decide) hfr hright hland fun l' hl' token htoken => ?_
      refine ⟨_, extension?_logic (by rw [htoken]; exact hkind), fun r' hr' => .pure ?_⟩
      simp [Expr.bare, hl', hr']
    | @assign op target v s k t vs ws hop ht hv =>
      simp only [List.length_append, List.length_cons] at hsize
      have hland : Lands g power target.toExpr vs (⟨k, t⟩ :: (ws ++ rest)) :=
        htight ht (Target.ordered_toExpr.mpr ho.1) target.isTight_toExpr (by simp)
      refine lands_between hg (hleft _ List.mem_cons_self) hv ho.2 (by omega) (by decide)
        (fun _ => Expr.le_of_mem_leftPowers) hright hland fun l' hl' token htoken => ?_
      obtain ⟨target', htarget, hbare⟩ := exists_target? hl'
      refine ⟨_, extension?_assign (by rw [htoken]; exact AssignOp.ofKind?_iff.mpr hop) htarget, fun r' hr' => .pure ?_⟩
      simp [Expr.bare, hbare, hr']

/-- An expression is read by the rule for it where it ends. -/
theorem takes_expressionRule (hg : g.Reads size) {power : Nat} {e : Expr} (hs : e.Spelled 1 ws)
    (ho : e.Ordered) (hsize : ws.length ≤ size + 1) (hpower : power ≤ Suffix.power)
    (hleft : ∀ p ∈ e.leftPowers, power ≤ p) (hright : ∀ p ∈ power :: e.rightPowers, Stops p rest) :
    Takes (expressionRule g power) (ws ++ rest) rest fun e' => e'.bare = e.bare := by
  obtain ⟨hstop, hright⟩ := List.forall_mem_cons.mp hright
  refine lands hg hs ho hsize hpower hleft hright _ _ fun e' he' room _ => ?_
  refine (takes_extend_of_stops hstop room e').weaken fun e'' he'' => ?_
  rw [he'', he']

end Grammar
end Rill.Syntax
