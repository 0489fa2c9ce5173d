import Rill.Proofs.Places.Statements
import Rill.Proofs.Places.Toolkit
import Rill.Proofs.Syntax.Likeness.Rules
import Rill.Proofs.Syntax.Verdict
import Rill.Proofs.Token.Legibility

/-! Blanks and comments between tokens make no difference to a program. -/
namespace Rill

open Token (Word)

namespace Syntax

/-- The same program up to places, or the same fault at tokens of the same number. -/
inductive ReadAlike (ts us : List Token) : Except Error Program → Except Error Program → Prop
  | ok {p q : Program} : p.bare = q.bare → ReadAlike ts us (.ok p) (.ok q)
  | error {fault : Fault} {t u : Token} (n : Nat) : ts[n]? = some t → us[n]? = some u →
      ReadAlike ts us (.error ⟨fault, t.span⟩) (.error ⟨fault, u.span⟩)

/-- The places of tokens of the same number. -/
def Abreast (ts us : List Token) (a b : Text.Span) : Prop :=
  ∃ (n : Nat) (t u : Token), ts[n]? = some t ∧ us[n]? = some u ∧ t.span = a ∧ u.span = b

theorem like_of_word {P : Text.Span → Text.Span → Prop} {t u : Token} (h : t.word = u.word)
    (hspan : P t.span u.span) : Token.Like P t u := by
  obtain ⟨kind, text, span⟩ := t
  obtain ⟨kind', text', span'⟩ := u
  obtain ⟨rfl, rfl⟩ : kind = kind' ∧ text = text' := Word.mk.inj h
  exact .mk hspan

/-- Tokens with the same words are like tokens, number by number. -/
theorem like_rest {P : Text.Span → Text.Span → Prop} {ts us : List Token}
    (hwords : us.map Token.word = ts.map Token.word)
    (hspan : ∀ (n : Nat) (t u : Token), ts[n]? = some t → us[n]? = some u → P t.span u.span) :
    List.Forall₂ (Token.Piece.Like P) (ts.map .ok) (us.map .ok) := by
  induction ts generalizing us with
  | nil =>
    cases us with
    | nil => exact .nil
    | cons u us => cases hwords
  | cons t ts ih =>
    cases us with
    | nil => cases hwords
    | cons u us =>
      obtain ⟨hword, hwords⟩ := List.cons.inj hwords
      apply List.Forall₂.cons
      · exact .ok (like_of_word hword.symm (hspan 0 t u rfl rfl))
      · exact ih hwords fun n => hspan (n + 1)

theorem getElem?_before {ts : List Token} {finish t : Token} {n : Nat} (h : ts[n]? = some t) :
    (ts ++ [finish])[n]? = some t := by
  have hn : n < ts.length := (List.getElem?_eq_some_iff.mp h).1
  rw [List.getElem?_append_left hn, h]

/-- Sources with the same words are like inputs. -/
theorem like_ofSource {s t : String} {ts us : List Token} (hs : Token.pieces s = ts.map .ok)
    (ht : Token.pieces t = us.map .ok) (hwords : us.map Token.word = ts.map Token.word) :
    Input.Like (Abreast (ts ++ [Token.endOf s]) (us ++ [Token.endOf t])) (Input.ofSource s)
      (Input.ofSource t) := by
  have hlength : us.length = ts.length := by simpa using congrArg List.length hwords
  have hend : (us ++ [Token.endOf t])[ts.length]? = some (Token.endOf t) := by
    rw [← hlength]
    exact List.getElem?_concat_length
  constructor
  · change List.Forall₂ _ (Token.pieces s) (Token.pieces t)
    rw [hs, ht]
    apply like_rest hwords
    intro n t u hn hn'
    exact ⟨n, t, u, getElem?_before hn, getElem?_before hn', rfl, rfl⟩
  -- The end of each source is the token after the last one.
  · exact .mk ⟨ts.length, _, _, List.getElem?_concat_length, hend, rfl, rfl⟩

theorem readAlike_parse {s t : String} {ts us : List Token} (hs : Token.pieces s = ts.map .ok)
    (ht : Token.pieces t = us.map .ok) (hwords : us.map Token.word = ts.map Token.word) :
    ReadAlike (ts ++ [Token.endOf s]) (us ++ [Token.endOf t]) (parse s) (parse t) := by
  have hread := Parser.alike_program _ _ (like_ofSource hs ht hwords)
  unfold parse
  generalize Parser.program (Input.ofSource s) = r at hread
  generalize Parser.program (Input.ofSource t) = r' at hread
  cases hread with
  | ok hbare _ => exact .ok hbare
  | @error e f _ _ herror _ =>
    obtain ⟨fault, span⟩ := e
    obtain ⟨fault', span'⟩ := f
    obtain ⟨rfl, n, t, u, htoken, htoken', rfl, rfl⟩ := herror
    exact .error n htoken htoken'

end Syntax

/-- The words of a source with blanks between them are the words of a source again. -/
theorem Token.pieces_spaced {s : String} {ts : List Token} (hs : pieces s = ts.map .ok) :
    ∃ us : List Token, pieces (Word.spaced (ts.map word)) = us.map .ok ∧
      us.map word = ts.map word := by
  apply piecesFrom_spaced
  intro w hw
  obtain ⟨t, ht, rfl⟩ := List.mem_map.mp hw
  have hpiece : .ok t ∈ pieces s := by
    rw [hs]
    exact List.mem_map_of_mem ht
  exact legible_of_mem_piecesFrom hpiece

namespace Session

/-- Two runs end alike: with values of the same text, with the same exit code, with exceptions of
the same class, message and code, or both for another reason that is the same. -/
inductive EndAlike (a b : Session) : Except Failure Value → Except Failure Value → Prop
  | value {v w : Value} : a.machine.store.repr v = b.machine.store.repr w →
      EndAlike a b (.ok v) (.ok w)
  | exit (code : Int) : EndAlike a b (.error (.halted (.exit code))) (.error (.halted (.exit code)))
  | exception {e f : Exception} : e.className = f.className → e.message = f.message →
      e.code = f.code →
      EndAlike a b (.error (.halted (.exception e))) (.error (.halted (.exception f)))
  | outOfFuel : EndAlike a b (.error (.halted .outOfFuel)) (.error (.halted .outOfFuel))
  | defect : EndAlike a b (.error (.halted .defect)) (.error (.halted .defect))
  | syntaxError {e f : Syntax.Error} : e.fault = f.fault →
      EndAlike a b (.error (.syntaxError e)) (.error (.syntaxError f))
  | misplaced {e f : Syntax.PlacementError} : e.fault = f.fault →
      EndAlike a b (.error (.misplaced e)) (.error (.misplaced f))

theorem endAlike_of_halt {a b : Session} {h k : Halt} (hlike : h.Like k) :
    EndAlike a b (.error (.halted h)) (.error (.halted k)) := by
  have hbare : h.bare = k.bare := hlike
  cases h with
  | exception e =>
    cases k with
    | exception f =>
      have hef : e.bare = f.bare := Halt.exception.inj hbare
      have hclass : e.bare.className = f.bare.className := by rw [hef]
      have hmessage : e.bare.message = f.bare.message := by rw [hef]
      have hcode : e.bare.code = f.bare.code := by rw [hef]
      exact .exception hclass hmessage hcode
    | _ => cases hbare
  | exit code =>
    cases k with
    | exit code' =>
      obtain rfl : code = code' := Halt.exit.inj hbare
      exact .exit code
    | _ => cases hbare
  | outOfFuel =>
    cases k with
    | outOfFuel => exact .outOfFuel
    | _ => cases hbare
  | defect =>
    cases k with
    | defect => exact .defect
    | _ => cases hbare

/-- Two runs end alike and leave like machines. -/
def RunAlike (r r' : Except Failure Value × Session) : Prop :=
  EndAlike r.2 r'.2 r.1 r'.1 ∧ r.2.machine.Like r'.2.machine

theorem runAlike_runProgram {a b : Session} (hab : a.machine.Like b.machine) {ev : Evaluator}
    (hev : ev.Blind) {p q : Syntax.Program} (hpq : p.bare = q.bare) :
    RunAlike (a.runProgram ev p) (b.runProgram ev q) := by
  have hp := alike_runStatements hev .null p
  have hq := alike_runStatements hev .null q
  have hbody : Syntax.bareBody p = Syntax.bareBody q := hpq
  rw [hbody] at hp
  have hmatched := (hp.trans hq.symm) _ _ hab
  unfold runProgram
  generalize runStatements ev .null p a.machine = r at hmatched
  generalize runStatements ev .null q b.machine = r' at hmatched
  cases hmatched with
  | @ok v w m n hvalue hlike =>
    have hrepr : m.store.repr v = n.store.repr w := by rw [hvalue, hlike.store.repr]
    exact ⟨.value hrepr, hlike⟩
  | error hhalt hlike => exact ⟨endAlike_of_halt hhalt, hlike⟩

theorem runAlike_runWith {a b : Session} (hab : a.machine.Like b.machine) {ev : Evaluator}
    (hev : ev.Blind) {s t : String} {ts us : List Token} (hs : Token.pieces s = ts.map .ok)
    (ht : Token.pieces t = us.map .ok) (hwords : us.map Token.word = ts.map Token.word) :
    RunAlike (a.runWith ev s) (b.runWith ev t) := by
  have hread := Syntax.readAlike_parse hs ht hwords
  unfold runWith
  generalize Syntax.parse s = r at hread
  generalize Syntax.parse t = r' at hread
  cases hread with
  | error n _ _ => exact ⟨.syntaxError rfl, hab⟩
  | @ok p q hpq =>
    have hverdict := Syntax.verdict_of_bare hpq
    dsimp only
    generalize p.check = c at hverdict
    generalize q.check = c' at hverdict
    cases c with
    | error e =>
      cases c' with
      | error f => exact ⟨.misplaced (Except.error.inj hverdict), hab⟩
      | ok _ => cases hverdict
    | ok _ =>
      cases c' with
      | error f => cases hverdict
      | ok _ => exact runAlike_runProgram hab hev hpq

/-- Layout makes no difference. The words of a source that consists of tokens, with blanks between
them, are read as the same words. Two sources with the same words are the same program up to places,
or fail with the same fault at tokens of the same number; they are checked with the same verdict;
and in every session whose host does not look at places, they print the same and end alike. -/
theorem run_layout {s : String} {ts : List Token} (hs : Token.pieces s = ts.map .ok) :
    (∃ us : List Token, Token.pieces (Word.spaced (ts.map Token.word)) = us.map .ok ∧
      us.map Token.word = ts.map Token.word) ∧
    ∀ (t : String) (us : List Token), Token.pieces t = us.map .ok →
      us.map Token.word = ts.map Token.word →
      Syntax.ReadAlike (ts ++ [Token.endOf s]) (us ++ [Token.endOf t]) (Syntax.parse s)
        (Syntax.parse t) ∧
      (∀ p q : Syntax.Program, Syntax.parse s = .ok p → Syntax.parse t = .ok q →
        Syntax.verdict p.check = Syntax.verdict q.check) ∧
      ∀ session : Session, (∀ f ∈ session.settings.hosts, f.Blind) →
        (session.run s).2.machine.output = (session.run t).2.machine.output ∧
        EndAlike (session.run s).2 (session.run t).2 (session.run s).1 (session.run t).1 := by
  constructor
  · exact Token.pieces_spaced hs
  intro t us ht hwords
  have hread := Syntax.readAlike_parse hs ht hwords
  refine ⟨hread, ?_, ?_⟩
  · intro p q hp hq
    rw [hp, hq] at hread
    cases hread with
    | ok hpq => exact Syntax.verdict_of_bare hpq
  · intro session hhosts
    have hev := Evaluator.blind_ofFuel hhosts fuel
    have hsame : session.machine.Like session.machine := Machine.Like.equivalence.refl _
    obtain ⟨hend, hlike⟩ := runAlike_runWith hsame hev hs ht hwords
    exact ⟨hlike.output, hend⟩

theorem run_layout_call :
    let s := "fun(x)\x7bx/0\x7d(1)#call"
    let t := "fun ( x ) \x7b x / 0 \x7d ( 1 )"
    let session := start ⟨100, false, fun _ => .error "", Host.toolkit.toArray⟩
    ∃ ts us : List Token, Token.pieces s = ts.map .ok ∧ Token.pieces t = us.map .ok ∧
      us.map Token.word = ts.map Token.word ∧
      (session.run s).2.machine.output = (session.run t).2.machine.output ∧
      EndAlike (session.run s).2 (session.run t).2 (session.run s).1 (session.run t).1 := by
  have hs : Token.pieces "fun(x)\x7bx/0\x7d(1)#call" = List.map .ok
      [⟨.keyword .funWord, "fun", ⟨0, 3⟩⟩, ⟨.symbol .leftParen, "(", ⟨3, 1⟩⟩, ⟨.ident, "x", ⟨4, 1⟩⟩,
        ⟨.symbol .rightParen, ")", ⟨5, 1⟩⟩, ⟨.symbol .leftBrace, "\x7b", ⟨6, 1⟩⟩,
        ⟨.ident, "x", ⟨7, 1⟩⟩, ⟨.symbol .slash, "/", ⟨8, 1⟩⟩, ⟨.int, "0", ⟨9, 1⟩⟩,
        ⟨.symbol .rightBrace, "\x7d", ⟨10, 1⟩⟩, ⟨.symbol .leftParen, "(", ⟨11, 1⟩⟩,
        ⟨.int, "1", ⟨12, 1⟩⟩, ⟨.symbol .rightParen, ")", ⟨13, 1⟩⟩] := by
    with_unfolding_all rfl
  intro s t session
  have hhosts : ∀ f ∈ session.settings.hosts, f.Blind := by
    intro f hf
    exact Host.blind_toolkit f (List.mem_toArray.mp hf)
  obtain ⟨⟨us, ht, hwords⟩, hsame⟩ := run_layout hs
  obtain ⟨-, -, hruns⟩ := hsame t us ht hwords
  exact ⟨_, us, hs, ht, hwords, hruns session hhosts⟩

end Session
end Rill
