import Runbook.Text.Lowercase
import Runbook.Text.Split

/-!
# Content types of keys

A key is taken for a path, or for an address when it begins with a scheme of two letters or more.
The ending of its last segment tells the content type; an ending that names a compression is looked
through. A `data:` address states its content type itself.
-/

namespace Runbook.ContentType

open Runbook.Text

/-- The content type of a key that tells none. -/
def fallback : String := "text/plain"

/-- Content types and the endings that tell them. -/
def table : List (String × List String) := [
  ("application/javascript", ["js", "mjs"]),
  ("application/json", ["json"]),
  ("application/manifest+json", ["webmanifest"]),
  ("application/msword", ["doc", "dot", "wiz"]),
  ("application/n-quads", ["nq"]),
  ("application/n-triples", ["nt"]),
  ("application/octet-stream", ["bin", "a", "dll", "exe", "o", "obj", "so"]),
  ("application/oda", ["oda"]),
  ("application/pdf", ["pdf"]),
  ("application/pkcs7-mime", ["p7c"]),
  ("application/postscript", ["ps", "ai", "eps"]),
  ("application/trig", ["trig"]),
  ("application/vnd.apple.mpegurl", ["m3u", "m3u8"]),
  ("application/vnd.ms-excel", ["xls", "xlb"]),
  ("application/vnd.ms-powerpoint", ["ppt", "pot", "ppa", "pps", "pwz"]),
  ("application/wasm", ["wasm"]),
  ("application/x-bcpio", ["bcpio"]),
  ("application/x-cpio", ["cpio"]),
  ("application/x-csh", ["csh"]),
  ("application/x-dvi", ["dvi"]),
  ("application/x-gtar", ["gtar"]),
  ("application/x-hdf", ["hdf"]),
  ("application/x-hdf5", ["h5"]),
  ("application/x-latex", ["latex"]),
  ("application/x-mif", ["mif"]),
  ("application/x-netcdf", ["cdf", "nc"]),
  ("application/x-pkcs12", ["p12", "pfx"]),
  ("application/x-pn-realaudio", ["ram"]),
  ("application/x-python-code", ["pyc", "pyo"]),
  ("application/x-sh", ["sh"]),
  ("application/x-shar", ["shar"]),
  ("application/x-shockwave-flash", ["swf"]),
  ("application/x-sv4cpio", ["sv4cpio"]),
  ("application/x-sv4crc", ["sv4crc"]),
  ("application/x-tar", ["tar"]),
  ("application/x-tcl", ["tcl"]),
  ("application/x-tex", ["tex"]),
  ("application/x-texinfo", ["texi", "texinfo"]),
  ("application/x-troff", ["roff", "t", "tr"]),
  ("application/x-troff-man", ["man"]),
  ("application/x-troff-me", ["me"]),
  ("application/x-troff-ms", ["ms"]),
  ("application/x-ustar", ["ustar"]),
  ("application/x-wais-source", ["src"]),
  ("application/xml", ["xsl", "rdf", "wsdl", "xpdl"]),
  ("application/zip", ["zip"]),
  ("audio/3gpp", ["3gp", "3gpp"]),
  ("audio/3gpp2", ["3g2", "3gpp2"]),
  ("audio/aac", ["aac", "adts", "loas", "ass"]),
  ("audio/basic", ["au", "snd"]),
  ("audio/mpeg", ["mp3", "mp2"]),
  ("audio/opus", ["opus"]),
  ("audio/x-aiff", ["aif", "aifc", "aiff"]),
  ("audio/x-pn-realaudio", ["ra"]),
  ("audio/x-wav", ["wav"]),
  ("image/avif", ["avif"]),
  ("image/bmp", ["bmp"]),
  ("image/gif", ["gif"]),
  ("image/ief", ["ief"]),
  ("image/jpeg", ["jpg", "jpe", "jpeg"]),
  ("image/heic", ["heic"]),
  ("image/heif", ["heif"]),
  ("image/png", ["png"]),
  ("image/svg+xml", ["svg"]),
  ("image/tiff", ["tiff", "tif"]),
  ("image/vnd.microsoft.icon", ["ico"]),
  ("image/x-cmu-raster", ["ras"]),
  ("image/x-portable-anymap", ["pnm"]),
  ("image/x-portable-bitmap", ["pbm"]),
  ("image/x-portable-graymap", ["pgm"]),
  ("image/x-portable-pixmap", ["ppm"]),
  ("image/x-rgb", ["rgb"]),
  ("image/x-xbitmap", ["xbm"]),
  ("image/x-xpixmap", ["xpm"]),
  ("image/x-xwindowdump", ["xwd"]),
  ("message/rfc822", ["eml", "mht", "mhtml", "nws"]),
  ("text/css", ["css"]),
  ("text/csv", ["csv"]),
  ("text/html", ["html", "htm"]),
  ("text/n3", ["n3"]),
  ("text/plain", ["txt", "bat", "c", "h", "ksh", "pl", "srt"]),
  ("text/richtext", ["rtx"]),
  ("text/tab-separated-values", ["tsv"]),
  ("text/vtt", ["vtt"]),
  ("text/x-python", ["py"]),
  ("text/x-setext", ["etx"]),
  ("text/x-sgml", ["sgm", "sgml"]),
  ("text/x-vcard", ["vcf"]),
  ("text/xml", ["xml"]),
  ("video/mp4", ["mp4"]),
  ("video/mpeg", ["mpeg", "m1v", "mpa", "mpe", "mpg"]),
  ("video/quicktime", ["mov", "qt"]),
  ("video/webm", ["webm"]),
  ("video/x-msvideo", ["avi"]),
  ("video/x-sgi-movie", ["movie"])]

/-- Endings that stand for two. -/
def doubled : List (String × List Char) := [
  ("svgz", ['s', 'v', 'g', '.', 'g', 'z']),
  ("tgz", ['t', 'a', 'r', '.', 'g', 'z']),
  ("taz", ['t', 'a', 'r', '.', 'g', 'z']),
  ("tz", ['t', 'a', 'r', '.', 'g', 'z']),
  ("tbz2", ['t', 'a', 'r', '.', 'b', 'z', '2']),
  ("txz", ['t', 'a', 'r', '.', 'x', 'z'])]

/-- Endings that name a compression. -/
def compressions : List String := ["gz", "Z", "bz2", "xz", "br"]

/-- The content type of an ending. -/
def ofEnding? (ending : String) : Option String :=
  (table.find? fun row => row.2.contains ending).map Prod.fst

/-- A path without its ending, and the ending. The ending follows the last point of the last
segment; points at the beginning of a segment do not count. -/
def splitEnding (path : List Char) : List Char × Option (List Char) :=
  let ending := (path.reverse.takeWhile fun c => c != '.' && c != '/').reverse
  match (path.take (path.length - ending.length)).reverse with
  | '.' :: front =>
    let name := front.takeWhile (· != '/')
    if name.any (· != '.') then (front.reverse, some ending) else (path, none)
  | _ => (path, none)

/-- The content type of a path. -/
def ofPath? (path : List Char) : Option String :=
  let (base, ending) := splitEnding path
  let (base, ending) := match ending.bind fun e => doubled.find? fun d =>
      d.1 == lower (String.ofList e) with
    | some d => splitEnding (base ++ '.' :: d.2)
    | none => (base, ending)
  let ending := if ending.any fun e => compressions.contains (String.ofList e)
    then (splitEnding base).2 else ending
  ending.bind fun e => ofEnding? (lower (String.ofList e))

/-- Whether a character may stand in a scheme. -/
def inScheme (c : Char) : Bool := c.isAlphanum || c == '+' || c == '-' || c == '.'

/-- The scheme of an address, and what follows it. -/
def splitScheme (cs : List Char) : Option (String × List Char) :=
  let front := cs.takeWhile (· != ':')
  match front, cs.drop front.length with
  | c :: _, ':' :: rest =>
    if c.isAlpha && front.all inScheme then some (lower (String.ofList front), rest) else none
  | _, _ => none

/-- Schemes whose paths may end in parameters. -/
def parametered : List String := [
  "ftp", "hdl", "prospero", "http", "https", "shttp", "rtsp", "rtspu", "sip", "sips", "mms",
  "sftp", "tel"]

/-- The path of an address, without host, query, fragment and parameters. -/
def pathOf (scheme : String) (cs : List Char) : List Char :=
  let beyondHost := match cs with
    | '/' :: '/' :: rest => rest.dropWhile fun c => c != '/' && c != '?' && c != '#'
    | cs => cs
  let path := beyondHost.takeWhile fun c => c != '?' && c != '#'
  if parametered.contains scheme then
    let last := (path.reverse.takeWhile (· != '/')).reverse
    path.take (path.length - last.length) ++ last.takeWhile (· != ';')
  else path

/-- The content type that a `data:` address states. -/
def ofData? (path : List Char) : Option String :=
  let front := path.takeWhile (· != ',')
  if front.length = path.length then none
  else
    let type := front.takeWhile (· != ';')
    if type.contains '=' || !type.contains '/' then some fallback else some (String.ofList type)

/-- The content type of a key. -/
def ofKey (key : String) : String :=
  let cs := (key.toList.dropWhile fun c => c.toNat ≤ 0x20).filter fun c =>
    c != '\t' && c != '\n' && c != '\r'
  let type? := match splitScheme cs with
    | some (scheme, rest) =>
      if scheme == "data" then ofData? (pathOf scheme rest)
      else if 1 < scheme.length then ofPath? (pathOf scheme rest)
      else ofPath? key.toList
    | none => ofPath? key.toList
  type?.getD fallback

end Runbook.ContentType
