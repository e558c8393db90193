/-!
# Keywords

The reserved words that steer the reading of a statement. Any other word, such as the name of a
function or a type, is an identifier. Each constructor is spelled as its word.

## Main definitions

* `SqlRouting.Keyword` — the reserved words.
* `SqlRouting.Keyword.word` — the spelling of a keyword.
* `SqlRouting.Keyword.ofWord?` — the keyword a word spells, ignoring ASCII case.
-/

set_option autoImplicit false

namespace SqlRouting

/-- A reserved word. -/
inductive Keyword
  | SELECT | FROM | WHERE | GROUP | ORDER | BY | HAVING | LIMIT | OFFSET | DISTINCT | ALL | AS
  | JOIN | INNER | LEFT | RIGHT | FULL | OUTER | CROSS | ON | USING
  | UNION | INTERSECT | EXCEPT
  | INSERT | INTO | VALUES | VALUE | SET | UPDATE | DUPLICATE | KEY
  | AND | OR | NOT | IN | BETWEEN | LIKE | IS | NULL | TRUE | FALSE | EXISTS
  | ASC | DESC | WITH | ROLLUP
  | COUNT | SUM | AVG | MIN | MAX
  | CASE | WHEN | THEN | ELSE | END
deriving DecidableEq, Repr

namespace Keyword

/-- Every keyword. -/
def all : List Keyword :=
  [.SELECT, .FROM, .WHERE, .GROUP, .ORDER, .BY, .HAVING, .LIMIT, .OFFSET, .DISTINCT, .ALL, .AS,
   .JOIN, .INNER, .LEFT, .RIGHT, .FULL, .OUTER, .CROSS, .ON, .USING, .UNION, .INTERSECT,
   .EXCEPT, .INSERT, .INTO, .VALUES, .VALUE, .SET, .UPDATE, .DUPLICATE, .KEY, .AND, .OR, .NOT,
   .IN, .BETWEEN, .LIKE, .IS, .NULL, .TRUE, .FALSE, .EXISTS, .ASC, .DESC, .WITH, .ROLLUP,
   .COUNT, .SUM, .AVG, .MIN, .MAX, .CASE, .WHEN, .THEN, .ELSE, .END]

/-- The spelling of a keyword, in capitals. -/
def word : Keyword → String
  | .SELECT => "SELECT"
  | .FROM => "FROM"
  | .WHERE => "WHERE"
  | .GROUP => "GROUP"
  | .ORDER => "ORDER"
  | .BY => "BY"
  | .HAVING => "HAVING"
  | .LIMIT => "LIMIT"
  | .OFFSET => "OFFSET"
  | .DISTINCT => "DISTINCT"
  | .ALL => "ALL"
  | .AS => "AS"
  | .JOIN => "JOIN"
  | .INNER => "INNER"
  | .LEFT => "LEFT"
  | .RIGHT => "RIGHT"
  | .FULL => "FULL"
  | .OUTER => "OUTER"
  | .CROSS => "CROSS"
  | .ON => "ON"
  | .USING => "USING"
  | .UNION => "UNION"
  | .INTERSECT => "INTERSECT"
  | .EXCEPT => "EXCEPT"
  | .INSERT => "INSERT"
  | .INTO => "INTO"
  | .VALUES => "VALUES"
  | .VALUE => "VALUE"
  | .SET => "SET"
  | .UPDATE => "UPDATE"
  | .DUPLICATE => "DUPLICATE"
  | .KEY => "KEY"
  | .AND => "AND"
  | .OR => "OR"
  | .NOT => "NOT"
  | .IN => "IN"
  | .BETWEEN => "BETWEEN"
  | .LIKE => "LIKE"
  | .IS => "IS"
  | .NULL => "NULL"
  | .TRUE => "TRUE"
  | .FALSE => "FALSE"
  | .EXISTS => "EXISTS"
  | .ASC => "ASC"
  | .DESC => "DESC"
  | .WITH => "WITH"
  | .ROLLUP => "ROLLUP"
  | .COUNT => "COUNT"
  | .SUM => "SUM"
  | .AVG => "AVG"
  | .MIN => "MIN"
  | .MAX => "MAX"
  | .CASE => "CASE"
  | .WHEN => "WHEN"
  | .THEN => "THEN"
  | .ELSE => "ELSE"
  | .END => "END"

/-- The keyword that `text` spells in any mixture of cases, if there is one. -/
def ofWord? (text : String) : Option Keyword :=
  let capitals := text.toList.map Char.toUpper
  all.find? fun keyword => keyword.word.toList == capitals

end Keyword

end SqlRouting
