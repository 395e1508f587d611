import DocPages.Html.Basic

/-!
# Icons

Line drawings in a box of 24 units. An unknown name falls back to a default drawing.
-/

namespace DocPages.Icon

def circle (cx cy r : Text) : Html := .leaf .circle [.fixed "cx" cx, .fixed "cy" cy, .fixed "r" r]

def path (d : Text) : Html := .leaf .path [.fixed "d" d]

def polyline (points : Text) : Html := .leaf .polyline [.fixed "points" points]

def polygon (points : Text) : Html := .leaf .polygon [.fixed "points" points]

def line (x1 x2 y1 y2 : Text) : Html :=
  .leaf .line [.fixed "x1" x1, .fixed "x2" x2, .fixed "y1" y1, .fixed "y2" y2]

def rect (width height x y rx ry : Text) : Html :=
  .leaf .rect [.fixed "width" width, .fixed "height" height, .fixed "x" x, .fixed "y" y,
    .fixed "rx" rx, .fixed "ry" ry]

def ellipse (cx cy rx ry : Text) : Html :=
  .leaf .ellipse [.fixed "cx" cx, .fixed "cy" cy, .fixed "rx" rx, .fixed "ry" ry]

/-- A drawing at the given size, with attributes of its own in front. -/
def drawing (attrs : List Attr) (size : Text) (shapes : List Html) : Html :=
  .element .svg
    (attrs ++ [.fixed "xmlns" "http://www.w3.org/2000/svg", .fixed "width" size, .fixed "height" size,
      .fixed "viewBox" "0 0 24 24", .fixed "fill" "none", .fixed "stroke" "currentColor",
      .fixed "stroke-width" "2", .fixed "stroke-linecap" "round", .fixed "stroke-linejoin" "round"])
    (Html.concat shapes)

def calloutShapes : List (Text × List Html) :=
  [("info",
    [circle "12" "12" "10",
     path "M12 16v-4",
     path "M12 8h.01"]),
   ("warning",
    [path "m21.73 18-8-14a2 2 0 0 0-3.48 0l-8 14A2 2 0 0 0 4 21h16a2 2 0 0 0 1.73-3Z",
     path "M12 9v4",
     path "M12 17h.01"]),
   ("danger",
    [circle "12" "12" "10",
     path "m15 9-6 6",
     path "m9 9 6 6"]),
   ("tip",
    [path ("M15 14c.2-1 .7-1.7 1.5-2.5 1-.9 1.5-2.2 1.5-3.5A6 6 0 0 0 6 8c0 1 .2 2.2 1.5 3.5.7.7 1.3 " ++
       "1.5 1.5 2.5"),
     path "M9 18h6",
     path "M10 22h4"]),
   ("success",
    [path "M22 11.08V12a10 10 0 1 1-5.93-9.14",
     polyline "22 4 12 14.01 9 11.01"]),
   ("note",
    [path "M14.5 2H6a2 2 0 0 0-2 2v16a2 2 0 0 0 2 2h12a2 2 0 0 0 2-2V7.5L14.5 2z",
     polyline "14 2 14 8 20 8"])]

def cardShapes : List (Text × List Html) :=
  [("file-text",
    [path "M14.5 2H6a2 2 0 0 0-2 2v16a2 2 0 0 0 2 2h12a2 2 0 0 0 2-2V7.5L14.5 2z",
     polyline "14 2 14 8 20 8",
     line "16" "8" "13" "13",
     line "16" "8" "17" "17",
     line "10" "8" "9" "9"]),
   ("code",
    [polyline "16 18 22 12 16 6",
     polyline "8 6 2 12 8 18"]),
   ("settings",
    [path ("M12.22 2h-.44a2 2 0 0 0-2 2v.18a2 2 0 0 1-1 1.73l-.43.25a2 2 0 0 1-2 0l-.15-.08a2 2 0 0 " ++
       "0-2.73.73l-.22.38a2 2 0 0 0 .73 2.73l.15.1a2 2 0 0 1 1 1.72v.51a2 2 0 0 1-1 1.74l-.15.09a2 " ++
       "2 0 0 0-.73 2.73l.22.38a2 2 0 0 0 2.73.73l.15-.08a2 2 0 0 1 2 0l.43.25a2 2 0 0 1 1 " ++
       "1.73V20a2 2 0 0 0 2 2h.44a2 2 0 0 0 2-2v-.18a2 2 0 0 1 1-1.73l.43-.25a2 2 0 0 1 2 " ++
       "0l.15.08a2 2 0 0 0 2.73-.73l.22-.39a2 2 0 0 0-.73-2.73l-.15-.08a2 2 0 0 1-1-1.74v-.5a2 2 0 " ++
       "0 1 1-1.74l.15-.09a2 2 0 0 0 .73-2.73l-.22-.38a2 2 0 0 0-2.73-.73l-.15.08a2 2 0 0 1-2 " ++
       "0l-.43-.25a2 2 0 0 1-1-1.73V4a2 2 0 0 0-2-2z"),
     circle "12" "12" "3"]),
   ("book",
    [path "M4 19.5v-15A2.5 2.5 0 0 1 6.5 2H20v20H6.5a2.5 2.5 0 0 1 0-5H20"]),
   ("zap",
    [polygon "13 2 3 14 12 14 11 22 21 10 12 10 13 2"]),
   ("globe",
    [circle "12" "12" "10",
     line "2" "22" "12" "12",
     path ("M12 2a15.3 15.3 0 0 1 4 10 15.3 15.3 0 0 1-4 10 15.3 15.3 0 0 1-4-10 15.3 15.3 0 0 1 " ++
       "4-10z")]),
   ("database",
    [ellipse "12" "5" "9" "3",
     path "M3 5V19A9 3 0 0 0 21 19V5",
     path "M3 12A9 3 0 0 0 21 12"]),
   ("shield",
    [path "M12 22s8-4 8-10V5l-8-3-8 3v7c0 6 8 10 8 10z"]),
   ("rocket",
    [path "M4.5 16.5c-1.5 1.26-2 5-2 5s3.74-.5 5-2c.71-.84.7-2.13-.09-2.91a2.18 2.18 0 0 0-2.91-.09z",
     path ("m12 15-3-3a22 22 0 0 1 2-3.95A12.88 12.88 0 0 1 22 2c0 2.72-.78 7.5-6 11a22.35 22.35 0 0 " ++
       "1-4 2z"),
     path "M9 12H4s.55-3.03 2-4c1.62-1.08 5 0 5 0",
     path "M12 15v5s3.03-.55 4-2c1.08-1.62 0-5 0-5"]),
   ("users",
    [path "M16 21v-2a4 4 0 0 0-4-4H6a4 4 0 0 0-4 4v2",
     circle "9" "7" "4",
     path "M22 21v-2a4 4 0 0 0-3-3.87",
     path "M16 3.13a4 4 0 0 1 0 7.75"]),
   ("key",
    [circle "7.5" "15.5" "5.5",
     path "m21 2-9.6 9.6",
     path "m15.5 7.5 3 3L22 7l-3-3"]),
   ("terminal",
    [polyline "4 17 10 11 4 5",
     line "12" "20" "19" "19"])]

/-- The shapes of an icon by name, or those of the default name. -/
def shapes (icons : List (Text × List Html)) (default name : Text) : List Html :=
  ((icons.lookup name).or (icons.lookup default)).getD []

def callout (kind : Text) : Html := drawing [] "20" (shapes calloutShapes "info" kind)

def card (name : Text) : Html := drawing [] "20" (shapes cardShapes "file-text" name)

def chevron : Html := drawing [.cls "doc-accordion-icon"] "16"
  [path "m6 9 6 6 6-6"]

def arrow : Html := drawing [.cls "doc-card-arrow"] "16"
  [path "M5 12h14",
   path "m12 5 7 7-7 7"]

def copy : Html := drawing [] "14"
  [rect "14" "14" "8" "8" "2" "2",
   path "M4 16c-1.1 0-2-.9-2-2V4c0-1.1.9-2 2-2h10c1.1 0 2 .9 2 2"]

def lock : Html := drawing [] "16"
  [rect "18" "11" "3" "11" "2" "2",
   path "M7 11V7a5 5 0 0 1 10 0v4"]

end DocPages.Icon
