import Rill.Outline

/-! Tokens: the words, symbols and literals of a source. -/
namespace Rill

/-- How a fixed word or symbol is spelled, called in messages and labelled in outlines. -/
structure Spelling where
  text : String
  title : String
  label : String

/-- Punctuation and operators. -/
inductive Symbol where
  | leftParen | rightParen | leftBrace | rightBrace | leftBracket | rightBracket
  | comma | dot | colon | semicolon | plus | minus
  | star | starStar | slash | slashSlash | percent | ampersand
  | pipe | caret | tilde | lessLess | greaterGreater | bang
  | ampersandAmpersand | pipePipe | bangEqual | equalEqual | less | lessEqual
  | greater | greaterEqual | equal | plusEqual | minusEqual | starEqual
  | starStarEqual | slashEqual | slashSlashEqual | percentEqual | ampersandEqual | pipeEqual
  | caretEqual | lessLessEqual | greaterGreaterEqual
deriving DecidableEq, Repr

namespace Symbol

def spelling : Symbol → Spelling
  | leftParen => ⟨"(", "LEFT_PAREN", "LeftParenthesis"⟩
  | rightParen => ⟨")", "RIGHT_PAREN", "RightParenthesis"⟩
  | leftBrace => ⟨"\x7b", "LEFT_BRACE", "LeftBrace"⟩
  | rightBrace => ⟨"\x7d", "RIGHT_BRACE", "RightBrace"⟩
  | leftBracket => ⟨"[", "LEFT_BRACKET", "LeftBracket"⟩
  | rightBracket => ⟨"]", "RIGHT_BRACKET", "RightBracket"⟩
  | comma => ⟨",", "COMMA", "Comma"⟩
  | dot => ⟨".", "DOT", "Dot"⟩
  | colon => ⟨":", "COLON", "Colon"⟩
  | semicolon => ⟨";", "SEMICOLON", "Semicolon"⟩
  | plus => ⟨"+", "PLUS", "Plus"⟩
  | minus => ⟨"-", "MINUS", "Minus"⟩
  | star => ⟨"*", "STAR", "Star"⟩
  | starStar => ⟨"**", "STAR_STAR", "StarStar"⟩
  | slash => ⟨"/", "SLASH", "Slash"⟩
  | slashSlash => ⟨"//", "SLASH_SLASH", "SlashSlash"⟩
  | percent => ⟨"%", "PERCENT", "Percent"⟩
  | ampersand => ⟨"&", "AMPERSAND", "Ampersand"⟩
  | pipe => ⟨"|", "PIPE", "Pipe"⟩
  | caret => ⟨"^", "CARET", "Caret"⟩
  | tilde => ⟨"~", "TILDE", "Tilde"⟩
  | lessLess => ⟨"<<", "LESS_LESS", "LessLess"⟩
  | greaterGreater => ⟨">>", "GREATER_GREATER", "GreaterGreater"⟩
  | bang => ⟨"!", "BANG", "Bang"⟩
  | ampersandAmpersand => ⟨"&&", "AMPERSAND_AMPERSAND", "AmpersandAmpersand"⟩
  | pipePipe => ⟨"||", "PIPE_PIPE", "PipePipe"⟩
  | bangEqual => ⟨"!=", "BANG_EQUAL", "BangEqual"⟩
  | equalEqual => ⟨"==", "EQUAL_EQUAL", "EqualEqual"⟩
  | less => ⟨"<", "LESS", "LessThan"⟩
  | lessEqual => ⟨"<=", "LESS_EQUAL", "LessThanEqual"⟩
  | greater => ⟨">", "GREATER", "GreaterThan"⟩
  | greaterEqual => ⟨">=", "GREATER_EQUAL", "GreaterThanEqual"⟩
  | equal => ⟨"=", "EQUAL", "Equal"⟩
  | plusEqual => ⟨"+=", "PLUS_EQUAL", "PlusEqual"⟩
  | minusEqual => ⟨"-=", "MINUS_EQUAL", "MinusEqual"⟩
  | starEqual => ⟨"*=", "STAR_EQUAL", "StarEqual"⟩
  | starStarEqual => ⟨"**=", "STAR_STAR_EQUAL", "StarStarEqual"⟩
  | slashEqual => ⟨"/=", "SLASH_EQUAL", "SlashEqual"⟩
  | slashSlashEqual => ⟨"//=", "SLASH_SLASH_EQUAL", "SlashSlashEqual"⟩
  | percentEqual => ⟨"%=", "PERCENT_EQUAL", "PercentEqual"⟩
  | ampersandEqual => ⟨"&=", "AMPERSAND_EQUAL", "AmpersandEqual"⟩
  | pipeEqual => ⟨"|=", "PIPE_EQUAL", "PipeEqual"⟩
  | caretEqual => ⟨"^=", "CARET_EQUAL", "CaretEqual"⟩
  | lessLessEqual => ⟨"<<=", "LESS_LESS_EQUAL", "LessLessEqual"⟩
  | greaterGreaterEqual => ⟨">>=", "GREATER_GREATER_EQUAL", "GreaterGreaterEqual"⟩

/-- All symbols, longer ones before shorter ones. -/
def all : List Symbol := [
  .starStarEqual, .slashSlashEqual, .lessLessEqual, .greaterGreaterEqual, .starStar, .slashSlash,
  .lessLess, .greaterGreater, .ampersandAmpersand, .pipePipe, .bangEqual, .equalEqual, .lessEqual,
  .greaterEqual, .plusEqual, .minusEqual, .starEqual, .slashEqual, .percentEqual, .ampersandEqual,
  .pipeEqual, .caretEqual, .leftParen, .rightParen, .leftBrace, .rightBrace, .leftBracket,
  .rightBracket, .comma, .dot, .colon, .semicolon, .plus, .minus, .star, .slash, .percent,
  .ampersand, .pipe, .caret, .tilde, .bang, .less, .greater, .equal]

end Symbol

/-- Words with a meaning of their own. Their constructors end in `Word`. -/
inductive Keyword where
  | andWord | breakWord | classWord | continueWord | doWord | elseWord
  | falseWord | forWord | funWord | ifWord | inWord | includeWord
  | moduleWord | newWord | nullWord | orWord | returnWord | trueWord
  | whileWord
deriving DecidableEq, Repr

namespace Keyword

def spelling : Keyword → Spelling
  | andWord => ⟨"and", "AND", "KeywordAnd"⟩
  | breakWord => ⟨"break", "BREAK", "KeywordBreak"⟩
  | classWord => ⟨"class", "CLASS", "KeywordClass"⟩
  | continueWord => ⟨"continue", "CONTINUE", "KeywordContinue"⟩
  | doWord => ⟨"do", "DO", "KeywordDo"⟩
  | elseWord => ⟨"else", "ELSE", "KeywordElse"⟩
  | falseWord => ⟨"false", "FALSE", "KeywordFalse"⟩
  | forWord => ⟨"for", "FOR", "KeywordFor"⟩
  | funWord => ⟨"fun", "FUN", "KeywordFun"⟩
  | ifWord => ⟨"if", "IF", "KeywordIf"⟩
  | inWord => ⟨"in", "IN", "KeywordIn"⟩
  | includeWord => ⟨"include", "INCLUDE", "KeywordInclude"⟩
  | moduleWord => ⟨"module", "MODULE", "KeywordModule"⟩
  | newWord => ⟨"new", "NEW", "KeywordNew"⟩
  | nullWord => ⟨"null", "NULL", "KeywordNull"⟩
  | orWord => ⟨"or", "OR", "KeywordOr"⟩
  | returnWord => ⟨"return", "RETURN", "KeywordReturn"⟩
  | trueWord => ⟨"true", "TRUE", "KeywordTrue"⟩
  | whileWord => ⟨"while", "WHILE", "KeywordWhile"⟩

def all : List Keyword := [
  .andWord, .breakWord, .classWord, .continueWord, .doWord, .elseWord, .falseWord, .forWord,
  .funWord, .ifWord, .inWord, .includeWord, .moduleWord, .newWord, .nullWord, .orWord,
  .returnWord, .trueWord, .whileWord]

/-- The keyword spelled `text`. -/
def ofText? (text : String) : Option Keyword := all.find? (·.spelling.text == text)

end Keyword

namespace Token

/-- What sort of token a piece of source is. -/
inductive Kind where
  | symbol (s : Symbol)
  | keyword (k : Keyword)
  | int
  | float
  | string
  | ident
  /-- The end of the source. -/
  | eof
deriving DecidableEq, Repr

namespace Kind

/-- The one way to spell a token of this kind, if there is one. -/
def fixedText? : Kind → Option String
  | symbol s => some s.spelling.text
  | keyword k => some k.spelling.text
  | _ => none

/-- The name used in messages. -/
def title : Kind → String
  | symbol s => s.spelling.title
  | keyword k => k.spelling.title
  | int => "INT"
  | float => "FLOAT"
  | string => "STRING"
  | ident => "IDENTIFIER"
  | eof => "EOF"

/-- The name used in outlines. -/
def label : Kind → String
  | symbol s => s.spelling.label
  | keyword k => k.spelling.label
  | int => "IntLiteral"
  | float => "FloatLiteral"
  | string => "StringLiteral"
  | ident => "Ident"
  | eof => "Eof"

end Kind
end Token

/-- A piece of source with its text and place. -/
structure Token where
  kind : Token.Kind
  text : String
  span : Text.Span
deriving DecidableEq, Repr

namespace Token

def outline (t : Token) : Outline :=
  .record "Token" [("kind", .leaf t.kind.label), ("span", .span t.span)]

end Token
end Rill
