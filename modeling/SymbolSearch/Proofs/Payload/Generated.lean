import SymbolSearch.Proofs.Payload

/-!
This module contains the plainest way to write a payload, which shows that there is one for whatever
a generator knows.
-/

namespace SymbolSearch

namespace Literal

def Spelling.ofChar (quote : Quote) (c : Char) : Spelling quote c :=
  if hquote : c = quote.char then
    .itself (by subst hquote; cases quote <;> decide)
  else if hbackslash : c = '\\' then
    .itself (by subst hbackslash; decide)
  else if hnewline : c = '\n' then
    .letter 'n' (by subst hnewline; decide)
  else
    .raw hquote hbackslash hnewline

namespace Rendering

def ofString (s : String) : Rendering :=
  .string .single (s.toList.map fun c => .char c (.ofChar .single c))

theorem value_ofString (s : String) : (ofString s).value = .string s := by
  simp [ofString, value, List.filterMap_map, Function.comp_def, Piece.char?]

def one : Rendering :=
  .integer false ['1'] (by decide) (by decide) (by decide)

end Rendering

def Items.ofList : List Rendering → Items
  | [] => .close []
  | [item] => .last [] item []
  | item :: rest => .more [] item [] (ofList rest)

theorem Items.values_ofList (items : List Rendering) :
    (ofList items).values = items.map Rendering.value := by
  fun_induction ofList items with
  | case1 => rfl
  | case2 item => rfl
  | case3 item rest _ ih => simp [values, ih]

end Literal

namespace Text

def Markup.ofChar (c : Char) : Markup c :=
  if h : c = '&' then .named "amp" (h ▸ .ampersand) else .plain h

def Marked.ofString (s : String) : Marked :=
  s.toList.map fun c => ⟨c, .ofChar c⟩

theorem Marked.text_ofString (s : String) : (ofString s).text = s := by
  simp [ofString, text, Function.comp_def]

end Text

open Literal (Items Rendering Value)

def Record.ofSubject (subject : Subject) : Record where
  id := .string subject.label
  hid := rfl
  label := .ofString subject.label
  anchors := [⟨subject.url, .integer 1, rfl, .ofString subject.scope⟩]
  hanchors := by simp

theorem Record.subjects_ofSubject (subject : Subject) : (ofSubject subject).subjects = [subject] := by
  simp [ofSubject, subjects, Text.Marked.text_ofString]

def Subject.rendering (subject : Subject) : Rendering :=
  .array (.ofList
    [
      .ofString subject.label,
      .array (.ofList
        [
          .ofString (Text.Marked.ofString subject.label).written,
          .array (.ofList
            [
              .ofString subject.url,
              .one,
              .ofString (Text.Marked.ofString subject.scope).written
            ])
        ])
    ])

theorem Subject.value_rendering (subject : Subject) :
    subject.rendering.value = (Record.ofSubject subject).value := by
  simp [rendering, Rendering.value, Items.values_ofList, Rendering.value_ofString, Record.value,
    Record.symbol, Anchor.value, Record.ofSubject, Rendering.one]
  rfl

namespace Payload

def Assignment.plain : Assignment where
  before := ⟨[], rfl⟩
  keyword := .var
  between := ⟨[' '], by decide⟩
  hbetween := by simp
  first := 's'
  hfirst := by decide
  rest := ['e', 'a', 'r', 'c', 'h', 'D', 'a', 't', 'a']
  hrest := by decide +kernel
  behind := ⟨[], rfl⟩

def Writing.generated (subjects : List Subject) : Writing subjects where
  mark := false
  assignment? := some .plain
  records := subjects.map Record.ofSubject
  hrecords := by simp [List.flatMap_map, Record.subjects_ofSubject]
  document := ⟨[], .array (.ofList (subjects.map Subject.rendering)), [], some []⟩
  hdocument := by
    simp [Literal.Document.value, Rendering.value, Items.values_ofList, Subject.value_rendering,
      Function.comp_def]

theorem ofPayload_searchData :
    Extraction.ofPayload "var searchData=[['<&',['<&amp;',['a.html#b',1,'f(T &amp;)']]]];" =
      .ok {
        entries := [⟨"<&", "f(T &)", "a.html#b", some .function⟩]
        warnings := []
        records := 1
      } := by
  have hentry : Subject.entry ⟨"<&", "f(T &)", "a.html#b"⟩ =
      ⟨"<&", "f(T &)", "a.html#b", some .function⟩ := by
    decide +kernel
  have htext : String.ofList (Writing.generated [⟨"<&", "f(T &)", "a.html#b"⟩]).text =
      "var searchData=[['<&',['<&amp;',['a.html#b',1,'f(T &amp;)']]]];" := by
    decide +kernel
  have hextraction := (Writing.generated [⟨"<&", "f(T &)", "a.html#b"⟩]).ofPayload_text
  rw [htext] at hextraction
  rw [hextraction, List.map_singleton, hentry]
  rfl

end Payload

end SymbolSearch
