import ScopeForest.Unicode.Script

namespace ScopeForest.Unicode

def extensions : List (List String × String) :=
  [(["avst", "cari", "copt", "dupl", "elba", "geor", "glag", "gong", "goth", "grek", "hani",
        "latn", "lydi", "mahj", "perm", "shaw"],
      "hBA"),
    (["beng", "cyrl", "deva", "latn", "lisu", "thai", "toto"], "baYA"),
    (["bopo", "latn"], "bbJABCNA"),
    (["latn", "lisu"], "bbPA"),
    (["latn", "thai"], "bbZA"),
    (["cher", "copt", "cyrl", "grek", "latn", "perm", "sunu", "tale"], "bdOA"),
    (["cher", "cyrl", "grek", "latn", "osge", "sunu", "tale", "todr"], "bdPA"),
    (["cher", "cyrl", "latn", "tfng"], "bdQA"),
    (["glag", "latn", "sunu", "syrc", "thai"], "bdRA"),
    (["aghb", "cher", "copt", "cyrl", "goth", "grek", "latn", "osge", "syrc", "tfng", "todr"],
      "bdSA"),
    (["copt", "elba", "glag", "goth", "kana", "latn"], "bdTA"),
    (["cyrl", "grek", "latn", "perm", "tfng"], "bdUA"),
    (["copt", "dupl", "hebr", "latn", "perm", "syrc", "tale", "tfng", "todr"], "bdVA"),
    (["armn", "cyrl", "dupl", "goth", "grek", "hebr", "latn", "perm", "syrc", "tale", "tfng"],
      "bdWA"),
    (["latn", "tfng"], "bdXA"),
    (["dupl", "latn", "syrc"], "bdYA"),
    (["cher", "cyrl", "latn", "osge"], "bdZA"),
    (["cher", "latn", "tale"], "beAA"),
    (["latn", "sunu"], "beBACA"),
    (["ethi", "latn"], "beCA"),
    (["cyrl", "latn", "todr"], "beFA"),
    (["grek", "latn", "perm", "todr"], "beHA"),
    (["cher", "dupl", "kana", "latn", "syrc", "tfng"], "beXA"),
    (["cher", "dupl", "latn", "syrc"], "beYA"),
    (["latn", "syrc"], "beZAIA"),
    (["latn", "sunu", "syrc"], "bfHA"),
    (["cher", "latn", "syrc"], "bfKA"),
    (["aghb", "cher", "goth", "latn", "sunu", "syrc", "thai"], "bfLA"),
    (["grek"], "bgCACAkaSB"),
    (["latn", "osge"], "bgYA"),
    (["aghb", "latn", "todr"], "bhEA"),
    (["latn"], "bhJM"),
    (["copt", "grek"], "biAB"),
    (["cyrl", "perm"], "bsLA"),
    (["cyrl", "glag"], "bsMACApuXAbtnFA"),
    (["cyrl", "latn"], "bsNB"),
    (["armn", "geor", "glag"], "ccNA"),
    (["arab", "gara", "nkoo", "rohg", "syrc", "thaa", "yezi"], "chOAOA"),
    (["arab", "syrc", "thaa"], "ciEA"),
    (["adlm", "arab", "gara", "nkoo", "rohg", "syrc", "thaa", "yezi"], "ciHA"),
    (["adlm", "arab", "mand", "mani", "ougr", "phlp", "rohg", "sogd", "syrc"], "cjOA"),
    (["arab", "syrc"], "cjZKbAA"),
    (["arab", "thaa", "yezi"], "ckUJ"),
    (["arab", "rohg"], "cpGA"),
    (["beng", "deva", "gran", "gujr", "guru", "knda", "latn", "mlym", "nand", "newa", "orya",
        "shrd", "taml", "telu", "tirh"],
      "dnTA"),
    (["beng", "deva", "gran", "gujr", "guru", "knda", "latn", "mlym", "newa", "orya", "taml",
        "telu", "tirh"],
      "dnUA"),
    (["beng", "deva", "dogr", "gong", "gonm", "gran", "gujr", "guru", "knda", "mahj", "mlym",
        "nand", "onao", "orya", "sind", "sinh", "sylo", "takr", "taml", "telu", "tirh"],
      "doMA"),
    (["beng", "deva", "dogr", "gong", "gonm", "gran", "gujr", "gukh", "guru", "knda", "limb",
        "mahj", "mlym", "nand", "onao", "orya", "sind", "sinh", "sylo", "takr", "taml", "telu",
        "tirh"],
      "doNA"),
    (["deva", "dogr", "kthi", "mahj"], "doOJ"),
    (["beng", "cakm", "sylo"], "dtMJ"),
    (["guru", "mult"], "dyKJ"),
    (["gujr", "khoj"], "edIJ"),
    (["gran", "taml"], "enENdvqBABAcDBetVBBA"),
    (["knda", "nand", "tutg"], "exAJ"),
    (["cakm", "mymr", "tale"], "geAJ"),
    (["geor", "glag", "latn"], "glFA"),
    (["runr"], "irRC"),
    (["buhd", "hano", "tagb", "tglg"], "iuNB"),
    (["mong", "phag"], "jcKBBA"),
    (["beng", "deva", "gran", "knda"], "kxSABA"),
    (["deva"], "kxTACAGACBDFDABD"),
    (["deva", "gran", "knda"], "kxVA"),
    (["beng", "deva", "newa", "telu", "tirh"], "kxXA"),
    (["beng", "deva", "telu"], "kxYA"),
    (["deva", "newa", "shrd"], "kxZA"),
    (["beng", "deva", "newa", "telu"], "kyAA"),
    (["deva", "shrd"], "kyBACBCA"),
    (["deva", "knda", "mlym", "orya", "taml", "telu"], "kyCA"),
    (["beng", "deva"], "kyJATB"),
    (["deva", "newa", "tirh"], "kyKA"),
    (["deva", "nand", "newa"], "kyRA"),
    (["beng", "deva", "shrd"], "kySA"),
    (["deva", "newa"], "kyTA"),
    (["beng", "deva", "newa", "shrd"], "kyVA"),
    (["beng", "deva", "gran", "knda", "mlym", "nand", "orya", "sinh", "telu", "tirh", "tutg"],
      "kzAA"),
    (["deva", "gran"], "kzBAEB"),
    (["deva", "gran", "knda", "tutg"], "kzCA"),
    (["beng"], "kzFA"),
    (["nand"], "kzIA"),
    (["cyrl", "latn", "syrc"], "ljCA"),
    (["syrc"], "ljEA"),
    (["latn", "mong", "phag"], "meXA"),
    (["adlm", "arab"], "mgDA"),
    (["cari", "geor", "glag", "hung", "lyci", "orkh"], "mgOA"),
    (["cari", "grek", "hung", "mero"], "mgRA"),
    (["deva", "gran", "latn"], "mmIA"),
    (["copt", "latn"], "rlVA"),
    (["avst", "orkh"], "rmUA"),
    (["avst", "cari", "geor", "hung", "kthi", "lydi", "samr"], "rmVA"),
    (["dupl"], "rnGAfuwPD"),
    (["adlm", "arab", "hung"], "rnLA"),
    (["hani", "tang"], "seAPtBA"),
    (["bopo", "hang", "hani", "hira", "kana", "mong", "yiii"], "seRA"),
    (["bopo", "hang", "hani", "hira", "kana", "mong", "phag", "yiii"], "seSA"),
    (["bopo", "hang", "hani", "hira", "kana"], "seTAPAIDQAGAdaaVB"),
    (["hani"], "seWAcDBmYPbGbLcGbNcEbWPLbZAdKYKEdSbEgbhXRlrYB"),
    (["bopo", "hang", "hani", "hira", "kana", "mong", "tibt", "yiii"], "seYB"),
    (["bopo", "hang", "hani", "hira", "kana", "lisu", "mong", "tibt", "yiii"], "sfAB"),
    (["bopo", "hang", "hani", "hira", "kana", "yiii"], "sfCFCHiPAdaeFE"),
    (["bopo", "hani"], "sgGD"),
    (["hira", "kana"], "sgNEdVDDAdNAdaeTAbTB"),
    (["hani", "hira", "kana"], "sgYB"),
    (["hani", "latn"], "clgIH"),
    (["deva", "dogr", "gujr", "guru", "khoj", "knda", "kthi", "mahj", "mlym", "modi", "nand",
        "shrd", "sind", "takr", "tirh", "tutg"],
      "clsAC"),
    (["deva", "dogr", "gujr", "guru", "khoj", "knda", "kthi", "mahj", "modi", "nand", "shrd",
        "sind", "takr", "tirh", "tutg"],
      "clsDC"),
    (["deva", "dogr", "gujr", "guru", "khoj", "kthi", "mahj", "modi", "sind", "takr", "tirh"],
      "clsGBBA"),
    (["deva", "dogr", "gujr", "guru", "khoj", "kthi", "mahj", "modi", "shrd", "sind", "takr",
        "tirh"],
      "clsIA"),
    (["beng", "deva", "tutg"], "clzLA"),
    (["deva", "taml"], "clzNA"),
    (["kali", "latn", "mymr"], "cmbUA"),
    (["bugi", "java"], "cmhZA"),
    (["arab", "nkoo"], "drxMB"),
    (["arab", "thaa"], "dseKAKA"),
    (["cpmn", "cprt", "linb"], "dtiMB"),
    (["cprt", "linb"], "dtiOAcAI"),
    (["cprt", "lina", "linb"], "dtiTbS"),
    (["arab", "copt"], "duaYbB"),
    (["mani", "ougr"], "dxcKA")]

def extendedScriptSet? (name : String) : Option CharSet := do
  let own ← script.set? name
  let names ← script.values.find? (·.contains name)
  let elsewhere := CharSet.unions (extensions.map fun e ↦ charSet e.2)
  let used := extensions.filter fun e ↦ e.1.any names.contains
  return (own.diff elsewhere).union (CharSet.unions (used.map fun e ↦ charSet e.2))

end ScopeForest.Unicode
