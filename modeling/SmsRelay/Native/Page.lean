import SmsRelay.ForStd.Template
import SmsRelay.Native.Schemas

/-!
# The log viewer

`render` and `esc` of `sms_relay/static/index.html`.  What goes into `innerHTML` is kept as
a list of pieces, so that the template literals and what is interpolated into them stay
apart; `Template.html` puts them together.

The messages are the ones of a response.  `fmt` stands for the page's `fmt` on the text of
`created_at`, since what `toLocaleString` gives depends on the browser.
-/

namespace SmsRelay

open Template

namespace Page

/-- The characters that the regular expression of `esc` finds, with what replaces each. -/
def entities : List (Char × List Char) :=
  "&<>\"'".toList.zip
    ["&amp;".toList, "&lt;".toList, "&gt;".toList, "&quot;".toList, "&#39;".toList]

/-- `esc`: nothing is shown for `null`. -/
def esc (s : Option String) : List Char := escape entities (s.getD "").toList

/-- `null` and the empty string are false. -/
def truthy (s : Option String) : Bool := s.getD "" != ""

/-- `s || fallback` -/
def orElse (s : Option String) (fallback : String) : String :=
  if truthy s then s.getD "" else fallback

/-- An integer in a template literal, below 2^53, from where on the page would have a rounded
    one. -/
def number (n : Nat) : List Char := (toString n).toList

/-- `counts[s] = (counts[s] || 0) + 1` -/
def count (counts : List (String × Nat)) (s : String) : List (String × Nat) :=
  if s ∈ counts.map Prod.fst then
    counts.map fun entry => if entry.1 = s then (entry.1, entry.2 + 1) else entry
  else counts ++ [(s, 1)]

/-- `Object.entries(counts)`: the statuses in the order in which they first occur. -/
def counts (messages : List MessageOut) : List (String × Nat) :=
  (messages.map MessageOut.status).foldl count []

/-- One box of the stats; its label is fixed for the total, and a hole for the others. -/
def stat (n : Nat) (label : Piece Char) : List (Piece Char) :=
  [.text "<div class=\"stat\"><b>".toList, .hole (number n), .text "</b><span>".toList, label,
    .text "</span></div>".toList]

/-- The stats. -/
def stats (messages : List MessageOut) (total : Nat) : List (Piece Char) :=
  stat total (.text "total".toList) ++
    (counts messages).flatMap fun entry => stat entry.2 (.hole entry.1.toList)

/-- The number that is shown. -/
def shownNumber (m : MessageOut) : String :=
  if m.direction = "inbound" then orElse m.fromNumber "?" else orElse m.toNumber "?"

/-- The error under the body, if there is one. -/
def errorNote (error : Option String) : List (Piece Char) :=
  if truthy error then
    [.text "<br><span class=\"s-failed\">".toList, .hole (esc error), .text "</span>".toList]
  else []

/-- One row of the table. -/
def row (fmt : DateTime → String) (m : MessageOut) : List (Piece Char) :=
  [.text "\n    <tr>\n      <td class=\"muted\">".toList, .hole (fmt m.createdAt).toList,
    .text "</td>\n      <td>".toList, .hole m.direction.toList,
    .text "</td>\n      <td><span class=\"pill s-".toList, .hole m.status.toList,
    .text "\">".toList, .hole m.status.toList,
    .text "</span></td>\n      <td>".toList, .hole (esc (some m.service)),
    .text "</td>\n      <td><code>".toList, .hole (esc (some (shownNumber m))),
    .text "</code></td>\n      <td class=\"body\">".toList, .hole (esc (some m.body))] ++
  errorNote m.error ++
  [.text "</td>\n      <td>".toList, .hole (number m.attempts),
    .text "</td>\n    </tr>".toList]

/-- What `render` writes into the page. -/
structure Rendered where
  stats : List (Piece Char)
  emptyHidden : Bool
  /-- `textContent`, which is not parsed. -/
  emptyText : String
  rows : List (Piece Char)

/-- `render(data.messages, data.total)` -/
def render (fmt : DateTime → String) (messages : List MessageOut) (total : Nat) : Rendered where
  stats := stats messages total
  emptyHidden := 0 < messages.length
  emptyText := "No messages yet."
  rows := messages.flatMap (row fmt)

end Page

end SmsRelay
