import Rill.Proofs.Syntax.Completeness.Expressions

/-! Statements are read from the words that spell them. -/
namespace Rill.Syntax

open Token (Word Kind)
open Rill.Syntax.Parser

namespace Grammar

variable {g : Grammar} {size : Nat} {ws rest : List Word}

theorem takes_sequenceRule (hg : g.Reads size) {e : Expr} (hs : SequenceSpelled 1 e ws)
    (ho : e.Ordered) (hsize : ws.length ≤ size + 1) (hrest : Closing (firstKind rest)) :
    Takes (sequenceRule g) (ws ++ rest) rest fun e' => e'.bare = e.bare :=
  takes_sequence hg hs ho hsize hrest fun _ _ _ he ho hle hrest =>
    takes_expressionRule hg he ho (Nat.le_trans hle hsize) (Nat.zero_le _)
      (fun _ _ => Nat.zero_le _) fun _ _ => stops_of_none hrest

theorem takes_sequenceUnless (hg : g.Reads size) {e : Option Expr} (hs : OptionSpelled 1 e ws)
    (ho : OptionOrdered e) (hsize : ws.length ≤ size) {terminator : Symbol}
    (hclosing : Closing (.symbol terminator)) {t : String} :
    Takes (sequenceUnless g terminator) (ws ++ ⟨.symbol terminator, t⟩ :: rest)
      (⟨.symbol terminator, t⟩ :: rest) fun e' => bareOption e' = bareOption e := by
  cases hs with
  | none =>
    refine .bind (takes_check_true rfl) fun found hfound => ?_
    subst hfound
    exact .pure rfl
  | some hs =>
    refine .bind (takes_check_false ((hs.begins.append _).ne hclosing.starts))
      fun found hfound => ?_
    subst hfound
    refine .bind (takes_innerSequence hg hs ho hsize hclosing) fun e' he' => .pure ?_
    rw [bareOption, bareOption, he']

/-- A condition or the like before a block. -/
theorem Reads.head (hg : g.Reads size) {e : Expr} {vs : List Word} {body : List Stmt}
    (hs : e.Spelled 1 vs) (ho : e.Ordered) (hsize : vs.length ≤ size)
    (hb : BlockSpelled 1 body ws) :
    Takes (g.expression 0) (vs ++ (ws ++ rest)) (ws ++ rest) fun e' => e'.bare = e.bare := by
  refine hg.inner hs ho hsize ?_
  cases hb
  rfl

/-- A statement is read up to where it ends. -/
abbrev TakesStmt (p : Parser Stmt) (s : Stmt) (ws rest : List Word) : Prop :=
  Takes p (ws ++ rest) rest fun s' => s'.bare = s.bare

theorem takes_conditionalRule (hg : g.Reads size) {e : Expr} {success : List Stmt}
    {failure : Option (List Stmt)} {span : Text.Span}
    (hs : Stmt.Spelled 1 (.ifElse e success failure span) ws)
    (ho : (Stmt.ifElse e success failure span).Ordered) (hsize : ws.length ≤ size + 1)
    (hrest : firstKind rest = .symbol .semicolon) :
    TakesStmt (conditionalRule g) (.ifElse e success failure span) ws rest := by
  cases hs with
  | ifOnly he hb =>
    simp only [List.length_append, List.length_cons] at hsize
    simp only [TakesStmt, List.append_assoc, List.cons_append]
    refine .bind takes_keyword fun _ _ => .bind (hg.head he ho.1 (by omega) hb) fun e' he' => ?_
    refine .bind (takes_block hg hb ho.2.1 (by omega)) fun r hr => ?_
    refine .bind (takes_eat?_none (by rw [hrest]; nofun)) fun found hfound => ?_
    subst hfound
    exact .pure (by simp [Stmt.bare, he', hr, bareBranch])
  | ifElse he hb hf =>
    simp only [List.length_append, List.length_cons] at hsize
    simp only [TakesStmt, List.append_assoc, List.cons_append]
    refine .bind takes_keyword fun _ _ => .bind (hg.head he ho.1 (by omega) hb) fun e' he' => ?_
    refine .bind (takes_block hg hb ho.2.1 (by omega)) fun r hr => ?_
    refine .bind takes_eat?_some fun found hfound => ?_
    obtain ⟨other, rfl⟩ := Option.isSome_iff_exists.mp hfound
    refine .bind (takes_check_false (by cases hf; nofun)) fun nested hnested => ?_
    subst hnested
    refine .bind (takes_block hg hf ho.2.2 (by omega)) fun r' hr' => .pure ?_
    simp [Stmt.bare, he', hr, hr', bareBranch]
  | elseIf he hb hf =>
    simp only [List.length_append, List.length_cons] at hsize
    simp only [TakesStmt, List.append_assoc, List.cons_append]
    refine .bind takes_keyword fun _ _ => .bind (hg.head he ho.1 (by omega) hb) fun e' he' => ?_
    refine .bind (takes_block hg hb ho.2.1 (by omega)) fun r hr => ?_
    refine .bind takes_eat?_some fun found hfound => ?_
    obtain ⟨other, rfl⟩ := Option.isSome_iff_exists.mp hfound
    refine .bind (takes_check_true (by cases hf <;> rfl)) fun nested hnested => ?_
    subst hnested
    refine .bind (hg.conditional hf ho.2.2.1 (by omega) hrest) fun s hs => .pure ?_
    simp [Stmt.bare, he', hr, hs, bareBranch, bareBody]

/-! ### Functions at the front -/

/-- A statement that begins with a function literal is read as an expression. -/
theorem functionRule_eq {i : Input} {t : String} (hi : i.Shows (⟨.keyword .funWord, t⟩ :: ws))
    (hfirst : firstKind ws = .symbol .leftParen) :
    functionRule g i = (do return Stmt.expr (← sequenceRule g) : Parser Stmt) i := by
  obtain ⟨token, j, hnext, hj, hword⟩ := takes_next i hi
  obtain ⟨hkind, -⟩ := Word.mk.inj hword
  have hkeyword : keyword .funWord i = .ok token j := by
    rw [keyword, expect, bind_of_ok hnext, if_pos hkind]
    rfl
  have hcheck : check (.symbol .leftParen) j = .ok true j := by
    obtain ⟨u, hpeek, hu⟩ := peek_of_shows hj
    rw [check, bind_of_ok hpeek, decide_eq_true (hu.trans hfirst)]
    rfl
  have hoperand : operand g i = functionLiteral g token.span j := by
    rw [operand, bind_of_ok hnext]
    simp only [hkind]
  rw [functionRule, bind_of_ok hkeyword, bind_of_ok hcheck, if_pos rfl]
  simp only [sequenceRule, expressionRule, bind_assoc]
  exact (bind_congr_at hoperand).symm

/-- What begins like an expression is read as one. -/
theorem bareStatement_eq {i : Input} (hi : i.Shows ws) (hws : Begins ws) :
    bareStatement g i = (do return Stmt.expr (← sequenceRule g) : Parser Stmt) i := by
  obtain ⟨token, hpeek, hkind⟩ := peek_of_shows hi
  rw [bareStatement, bind_of_ok hpeek]
  by_cases hfun : token.kind = .keyword .funWord
  · rw [hfun]
    have hunnamed := hws.unnamed (hkind.symm.trans hfun)
    match ws, hi with
    | ⟨k, t⟩ :: ws, hi =>
      obtain rfl : k = .keyword .funWord := hkind.symm.trans hfun
      exact functionRule_eq hi hunnamed
  · have hne {k : Kind} (hk : k.startsExpr = false) : token.kind ≠ k := by
      rw [hkind]
      exact hws.ne hk
    apply congrFun
    split <;> rename_i h <;> first | exact absurd h hfun | exact absurd h (hne rfl) | rfl

theorem takes_includeRule {t u : String} {span : Text.Span} :
    TakesStmt includeRule (.includeFile (Text.unescape u) span)
      [⟨.keyword .includeWord, t⟩, ⟨.string, u⟩] rest := by
  refine .bind takes_keyword fun _ _ => .bind takes_expect fun path hpath => .pure ?_
  rw [hpath.2]
  rfl

theorem takes_returnRule (hg : g.Reads size) {e : Option Expr} (hs : OptionSpelled 1 e ws)
    (ho : OptionOrdered e) (hsize : ws.length ≤ size)
    (hrest : firstKind rest = .symbol .semicolon) {t : String} {span : Text.Span} :
    TakesStmt (returnRule g) (.returnValue e span) (⟨.keyword .returnWord, t⟩ :: ws) rest := by
  simp only [TakesStmt, List.cons_append]
  refine .bind takes_keyword fun start _ => .bind takes_peek fun token htoken => ?_
  cases hs with
  | none =>
    rw [htoken, List.nil_append, hrest]
    exact .pure rfl
  | @some e _ he =>
    have hclosing : Closing (firstKind rest) := hrest ▸ closing_semicolon
    have hne {k : Kind} (hk : k.startsExpr = false) : token.kind ≠ k := by
      rw [htoken]
      exact (he.begins.append rest).ne hk
    split <;> rename_i h
    · exact absurd h (hne rfl)
    · exact absurd h (hne rfl)
    · exact absurd h (hne rfl)
    refine .bind (takes_innerSequence hg he ho hsize hclosing) fun e' he' => .pure ?_
    rw [Stmt.bare, Stmt.bare, bareOption, bareOption, he']

theorem takes_superclass?_none (h : firstKind ws ≠ .symbol .leftParen) :
    Takes (superclass? g) ws ws fun e => e = none := by
  refine .bind (takes_skip_false h) fun found hfound => ?_
  subst hfound
  exact .pure rfl

theorem takes_superclass?_some (hg : g.Reads size) {e : Expr} (hs : e.Spelled 1 ws)
    (ho : e.Ordered) (hsize : ws.length ≤ size) {t u : String} :
    Takes (superclass? g) (⟨.symbol .leftParen, t⟩ :: (ws ++ ⟨.symbol .rightParen, u⟩ :: rest)) rest
      fun e' => bareOption e' = some e.bare := by
  refine .bind takes_skip fun found hfound => ?_
  subst hfound
  refine .bind (hg.inner hs ho hsize rfl) fun e' he' => .bind takes_symbol fun _ _ => .pure ?_
  rw [bareOption, he']

theorem takes_classRule (hg : g.Reads size) {n : Ident} {e : Option Expr} {body : List Stmt}
    {span : Text.Span} (hs : Stmt.Spelled 1 (.classDecl n e body span) ws)
    (ho : (Stmt.classDecl n e body span).Ordered) (hsize : ws.length ≤ size + 1) :
    TakesStmt (classRule g) (.classDecl n e body span) ws rest := by
  cases hs with
  | classDecl hb =>
    simp only [List.length_cons] at hsize
    simp only [TakesStmt, List.cons_append]
    refine .bind takes_keyword fun _ _ => .bind takes_ident fun n hn => ?_
    refine .bind (takes_superclass?_none (by cases hb; nofun)) fun superclass hsuper => ?_
    subst hsuper
    refine .bind (takes_block hg hb ho.2 (by omega)) fun r hr => .pure ?_
    simp only [Stmt.bare, hr, hn]
    rfl
  | subclassDecl he hb =>
    simp only [List.length_append, List.length_cons] at hsize
    simp only [TakesStmt, List.append_assoc, List.cons_append]
    refine .bind takes_keyword fun _ _ => .bind takes_ident fun n hn => ?_
    refine .bind (takes_superclass?_some hg he ho.1 (by omega)) fun superclass hsuper => ?_
    refine .bind (takes_block hg hb ho.2 (by omega)) fun r hr => .pure ?_
    simp only [Stmt.bare, hr, hn, hsuper]
    rfl

theorem takes_forRule (hg : g.Reads size) {i c p : Option Expr} {body : List Stmt}
    {s s' : Text.Span} {t t₁ t₂ t₃ t₄ : String} {us vs xs : List Word}
    (hi : OptionSpelled 1 i us) (hc : OptionSpelled 1 c vs) (hp : OptionSpelled 1 p ws)
    (hb : BlockSpelled 1 body xs) (hoi : OptionOrdered i) (hoc : OptionOrdered c)
    (hop : OptionOrdered p) (hob : BodyOrdered body)
    (hsize : us.length + vs.length + ws.length + xs.length ≤ size) :
    TakesStmt (forRule g) (.block (initial i ++ [.loop c body p false s']) s)
      (⟨.keyword .forWord, t⟩ :: ⟨.symbol .leftParen, t₁⟩ :: us ++
        ⟨.symbol .semicolon, t₂⟩ :: vs ++ ⟨.symbol .semicolon, t₃⟩ :: ws ++
          ⟨.symbol .rightParen, t₄⟩ :: xs) rest := by
  simp only [TakesStmt, List.append_assoc, List.cons_append]
  refine .bind takes_keyword fun _ _ => .bind takes_skip fun found hfound => ?_
  subst hfound
  refine .bind (takes_sequenceUnless hg hi hoi (by omega) closing_semicolon) fun i' hi' => ?_
  refine .bind takes_symbol fun _ _ => ?_
  refine .bind (takes_sequenceUnless hg hc hoc (by omega) closing_semicolon) fun c' hc' => ?_
  refine .bind takes_symbol fun _ _ => ?_
  refine .bind (takes_sequenceUnless hg hp hop (by omega) closing_rightParen) fun p' hp' => ?_
  refine .bind takes_symbol fun _ _ => ?_
  refine .bind (takes_block hg hb hob (by omega)) fun r hr => ?_
  cases i' with
  | none =>
    cases i with
    | none => exact .pure (by simp [Stmt.bare, initial, bareBody, hc', hp', hr])
    | some => cases hi'
  | some e' =>
    cases i with
    | none => cases hi'
    | some e =>
      have he' : e'.bare = e.bare := Option.some.inj hi'
      exact .pure (by simp [Stmt.bare, initial, bareBody, he', hc', hp', hr])

theorem bodyOrdered_initial {i : Option Expr} {s : Stmt} (h : BodyOrdered (initial i ++ [s])) :
    OptionOrdered i ∧ s.Ordered := by
  cases i with
  | none => exact ⟨trivial, h.1⟩
  | some e => exact ⟨h.1, h.2.1⟩

theorem takes_bareStatement (hg : g.Reads size) {s : Stmt} (hs : s.Spelled 1 ws) (ho : s.Ordered)
    (hsize : ws.length ≤ size + 1) (hrest : firstKind rest = .symbol .semicolon) :
    TakesStmt (bareStatement g) s ws rest := by
  cases hs with
  | expr he =>
    intro i hi
    rw [bareStatement_eq hi (he.begins.append rest)]
    have hclosing : Closing (firstKind rest) := hrest ▸ closing_semicolon
    refine Takes.bind (takes_sequenceRule hg he ho hsize hclosing) (fun e' he' => .pure ?_) i hi
    rw [Stmt.bare, Stmt.bare, he']
  | functionDecl hd =>
    simp only [List.length_cons] at hsize
    simp only [TakesStmt, List.cons_append]
    refine .bind takes_peek fun token htoken => ?_
    rw [htoken]
    refine .bind takes_keyword fun _ _ => ?_
    refine .bind (takes_check_false nofun) fun found hfound => ?_
    subst hfound
    refine .bind takes_ident fun n hn => ?_
    refine .bind (takes_functionRest hg hd ho (by omega) hn _) fun d' hd' => .pure ?_
    rw [Stmt.bare, Stmt.bare, hd']
  | moduleDecl hb =>
    simp only [List.length_cons] at hsize
    simp only [TakesStmt, List.cons_append]
    refine .bind takes_peek fun token htoken => ?_
    rw [htoken]
    refine .bind takes_keyword fun _ _ => .bind takes_ident fun n hn => ?_
    refine .bind (takes_block hg hb ho (by omega)) fun r hr => .pure ?_
    simp only [Stmt.bare, hr, hn]
    rfl
  | classDecl hb =>
    refine .bind takes_peek fun token htoken => ?_
    rw [htoken]
    exact takes_classRule hg (.classDecl hb) ho hsize
  | subclassDecl he hb =>
    refine .bind takes_peek fun token htoken => ?_
    rw [htoken]
    exact takes_classRule hg (.subclassDecl he hb) ho hsize
  | includeFile =>
    refine .bind takes_peek fun token htoken => ?_
    rw [htoken]
    exact takes_includeRule
  | ifOnly he hb =>
    refine .bind takes_peek fun token htoken => ?_
    rw [htoken]
    exact takes_conditionalRule hg (.ifOnly he hb) ho hsize hrest
  | ifElse he hb hf =>
    refine .bind takes_peek fun token htoken => ?_
    rw [htoken]
    exact takes_conditionalRule hg (.ifElse he hb hf) ho hsize hrest
  | elseIf he hb hf =>
    refine .bind takes_peek fun token htoken => ?_
    rw [htoken]
    exact takes_conditionalRule hg (.elseIf he hb hf) ho hsize hrest
  | whileLoop he hb =>
    simp only [List.length_append, List.length_cons] at hsize
    simp only [TakesStmt, List.append_assoc, List.cons_append]
    refine .bind takes_peek fun token htoken => ?_
    rw [htoken]
    refine .bind takes_keyword fun _ _ => .bind (hg.head he ho.1 (by omega) hb) fun e' he' => ?_
    refine .bind (takes_block hg hb ho.2.1 (by omega)) fun r hr => .pure ?_
    simp [Stmt.bare, bareOption, he', hr]
  | doWhile hb he =>
    simp only [List.length_append, List.length_cons] at hsize
    simp only [TakesStmt, List.append_assoc, List.cons_append]
    refine .bind takes_peek fun token htoken => ?_
    rw [htoken]
    refine .bind takes_keyword fun _ _ => ?_
    refine .bind (takes_block hg hb ho.2.1 (by omega)) fun r hr => .bind takes_keyword fun _ _ => ?_
    refine .bind (hg.inner he ho.1 (by omega) (by rw [hrest]; rfl)) fun e' he' => .pure ?_
    simp [Stmt.bare, bareOption, he', hr]
  | forLoop hi hc hp hb =>
    simp only [List.length_append, List.length_cons] at hsize
    obtain ⟨hoi, hoc, hob, hop⟩ := bodyOrdered_initial ho
    refine .bind takes_peek fun token htoken => ?_
    rw [htoken]
    exact takes_forRule hg hi hc hp hb hoi hoc hop hob (by omega)
  | forEach he hb =>
    simp only [List.length_append, List.length_cons] at hsize
    simp only [TakesStmt, List.append_assoc, List.cons_append]
    refine .bind takes_peek fun token htoken => ?_
    rw [htoken]
    refine .bind takes_keyword fun _ _ => .bind (takes_skip_false nofun) fun found hfound => ?_
    subst hfound
    refine .bind takes_ident fun n hn => .bind takes_keyword fun _ _ => ?_
    refine .bind (hg.head he ho.1 (by omega) hb) fun e' he' => ?_
    refine .bind (takes_block hg hb ho.2 (by omega)) fun r hr => .pure ?_
    simp only [Stmt.bare, hr, hn, he']
    rfl
  | breakLoop =>
    refine .bind takes_peek fun token htoken => ?_
    rw [htoken]
    exact .bind takes_next fun _ _ => .pure rfl
  | continueLoop =>
    refine .bind takes_peek fun token htoken => ?_
    rw [htoken]
    exact .bind takes_next fun _ _ => .pure rfl
  | returnNone =>
    refine .bind takes_peek fun token htoken => ?_
    rw [htoken]
    exact takes_returnRule hg .none trivial (by simp) hrest
  | returnSome he =>
    simp only [List.length_cons] at hsize
    refine .bind takes_peek fun token htoken => ?_
    rw [htoken]
    exact takes_returnRule hg (.some he) ho (by omega) hrest

theorem takes_statementRule (hg : g.Reads size) {s : Stmt} (hs : s.Spelled 1 ws) (ho : s.Ordered)
    (hsize : ws.length ≤ size + 1) {t : String} :
    Takes (statementRule g) (ws ++ ⟨.symbol .semicolon, t⟩ :: rest) rest fun s' =>
      s'.bare = s.bare :=
  .bind (takes_bareStatement hg hs ho hsize rfl) fun _ hs' => .bind takes_skip fun _ _ => .pure hs'

/-- The grammar of some depth reads whatever has no more words. -/
theorem reads_ofDepth (depth : Nat) : (ofDepth depth).Reads depth := by
  induction depth with
  | zero =>
    refine ⟨fun hs _ hsize => ?_, fun hs _ hsize => ?_, fun hs _ hsize => ?_⟩
    · have hpos := hs.begins.pos
      omega
    · have hpos := hs.pos
      omega
    · have hpos := hs.pos
      omega
  | succ depth ih =>
    exact ⟨takes_expressionRule ih, fun hs ho hsize => takes_statementRule ih hs ho hsize,
      takes_conditionalRule ih⟩

end Grammar

namespace Parser

theorem takes_statement {s : Stmt} {ws rest : List Word} {t : String} (hs : s.Spelled 1 ws)
    (ho : s.Ordered) :
    Takes statement (ws ++ ⟨.symbol .semicolon, t⟩ :: rest) rest fun s' => s'.bare = s.bare := by
  refine .bind takes_remaining fun n hn => ?_
  refine (Grammar.reads_ofDepth n).statement hs ho ?_
  rw [hn, List.length_append]
  omega

theorem takes_statements {ss : List Stmt} {vs ws : List Word} (hvs : Semicolons 0 vs)
    (hs : BodySpelled 1 ss ws) (ho : BodyOrdered ss) {room : Nat}
    (hroom : vs.length + ws.length ≤ room) (body : List Stmt) :
    Takes (statements room body) (vs ++ ws) [] fun r =>
      ∃ ss', r = ss'.reverse ++ body ∧ bareBody ss' = bareBody ss := by
  induction ss generalizing vs ws room body with
  | nil =>
    cases hs
    cases room with
    | zero =>
      obtain rfl : vs = [] := List.length_eq_zero_iff.mp (by omega)
      exact .pure ⟨[], rfl, rfl⟩
    | succ room =>
      refine .bind takes_remaining fun n hn => ?_
      subst hn
      refine .bind (takes_skipSemicolons hvs (by simp) nofun) fun _ _ => ?_
      refine .bind (takes_check_true rfl) fun atEnd hend => ?_
      subst hend
      exact .pure ⟨[], rfl, rfl⟩
  | cons s ss ih =>
    cases hs with
    | @cons _ _ us xs ws hs hxs hss =>
      obtain ⟨t, ys, rfl, hys⟩ := Grammar.Semicolons.exists_cons hxs
      simp only [List.length_append, List.length_cons] at hroom
      obtain ⟨room, rfl⟩ := Nat.exists_eq_add_one_of_ne_zero (n := room) (by omega)
      simp only [List.append_assoc, List.cons_append]
      refine .bind takes_remaining fun n hn => ?_
      subst hn
      refine .bind (takes_skipSemicolons hvs (by simp) (hs.firstKind_ne (by simp) _)) fun _ _ => ?_
      refine .bind (takes_check_false (hs.firstKind_ne (by simp) _)) fun atEnd hend => ?_
      subst hend
      refine .bind (takes_statement hs ho.1) fun s' hs' => ?_
      refine (ih hys hss ho.2 (by omega) (s' :: body)).weaken ?_
      rintro _ ⟨ss', rfl, hss'⟩
      exact ⟨s' :: ss', by simp, by simp [bareBody, hs', hss']⟩

end Parser
end Rill.Syntax
