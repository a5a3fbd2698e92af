import TodoRust.Pages.Reading

/-!
# The templates

The files of `templates/`, as the template engine reads them: comments are gone, the
line break at the end of a file is dropped, and space is trimmed where a tag says so.
A page that extends `base.html` is what it puts into the blocks.
-/

namespace TodoRust.Pages

/-- `partials/todo.html` -/
def todoHtml : Template := .all [
  .text (lit r#"
        <li id="todo-"#),
  .emit (.field (.var "todo") "id"),
  .text (lit r#"" class="todo-row" data-completed=""#),
  .emit (.ifElse (.text "true") (.field (.var "todo") "completed") (.text "false")),
  .text (lit r#"">

            
            <form action="/todos/"#),
  .emit (.field (.var "todo") "id"),
  .text (lit r#"/toggle" method="post" class="contents">
                <button type="submit" class="toggle-box" hx-post="/todos/"#),
  .emit (.field (.var "todo") "id"),
  .text (lit r#"/toggle" hx-target="closest li"
                    hx-swap="outerHTML"
                    aria-label=""#),
  .emit (.ifElse (.t "todo-mark-open") (.field (.var "todo") "completed") (.t "todo-mark-done")),
  .text (lit r#""
                    aria-pressed=""#),
  .emit (.ifElse (.text "true") (.field (.var "todo") "completed") (.text "false")),
  .text (lit r#"">
                </button>
            </form>

            
            <div class="min-w-0">
                <p class="todo-title">"#),
  .emit (.field (.var "todo") "title"),
  .text (lit r#"</p>
                <span class="todo-meta">"#),
  .ifElse (.field (.var "todo") "completed")
    (.all [
      .emit (.t "todo-status-done"),
      .text (lit " &middot;"),
      .ifElse (.field (.var "todo") "updated_at")
        (.all [
          .text (lit " "),
          .datetime (.field (.var "todo") "updated_at") "medium"])
        .nothing])
    (.all [
      .emit (.t "todo-status-entered"),
      .text (lit " &middot;"),
      .ifElse (.field (.var "todo") "created_at")
        (.all [
          .text (lit " "),
          .datetime (.field (.var "todo") "created_at") "medium"])
        .nothing]),
  .text (lit r#"</span>
            </div>

            
            <div class="contents">
                <button type="button" class="row-action" hx-delete="/todos/"#),
  .emit (.field (.var "todo") "id"),
  .text (lit r#"" hx-target="closest li"
                    hx-swap="outerHTML swap:200ms" hx-confirm=""#),
  .emit (.t "todo-confirm-delete"),
  .text (lit r#""
                    aria-label=""#),
  .emit (.t "todo-delete-aria"),
  .text (lit r#"">
                    
                    <svg width="14" height="14" viewBox="0 0 14 14" aria-hidden="true" focusable="false">
                        <path d="M1.5 1.5 L12.5 12.5 M12.5 1.5 L1.5 12.5" stroke="currentColor" stroke-width="1.25"
                            stroke-linecap="round" fill="none" />
                    </svg>
                </button>
            </div>

        </li>"#)]

/-- `partials/todo_list.html` -/
def todoListHtml : Template := .all [
  .text (lit r#"
        <ul id="todo-list" class="list-none p-0 m-0">
            "#),
  .forIn "todo" (.var "todos")
    (.all [
      .text (lit "
            "),
      todoHtml,
      .text (lit "
            ")]),
  .text (lit "
        </ul>")]

def baseTop : Template := .all [
  .text (lit r#"<!doctype html>
<html lang=""#),
  .emit (.or (.var "_locale") (.text "en")),
  .text (lit r#"">

<head>
    <meta charset="utf-8">
    <meta name="viewport" content="width=device-width, initial-scale=1, viewport-fit=cover">
    <meta name="color-scheme" content="light">
    <title>"#)]

def baseHead : Template := .all [
  .text (lit r#"</title>
    <meta name="description" content="A small, quiet ledger for the day's intentions.">

    <link rel="stylesheet" href=""#),
  .emit (.asset "css/app.css"),
  .text (lit r#"">

    
    <link rel="icon" type="image/svg+xml"
        href="data:image/svg+xml;utf8,<svg xmlns='http://www.w3.org/2000/svg' viewBox='0 0 32 32'><rect width='32' height='32' rx='4' fill='%23fbf7ee'/><circle cx='16' cy='16' r='5' fill='%23e34a2c'/></svg>">

    
    <script nonce=""#),
  .emit (.var "csp_nonce"),
  .text (lit "\">
        (() => \x7b
            const tz = Intl.DateTimeFormat().resolvedOptions().timeZone;
            if (!document.cookie.split('; ').some(c => c.startsWith('tz='))) \x7b
                document.cookie = 'tz=' + tz + '; path=/; max-age=31536000; samesite=lax';
            \x7d
            const locale = document.documentElement.lang || 'en';
            const upgrade = (root) => \x7b
                for (const el of root.querySelectorAll('time[datetime]')) \x7b
                    const style = el.dataset.style || 'medium';
                    const fmt = new Intl.DateTimeFormat(locale, \x7b
                        dateStyle: style, timeStyle: 'short', timeZone: tz
                    \x7d);
                    el.textContent = fmt.format(new Date(el.dateTime));
                \x7d
            \x7d;
            // Running synchronously in <head>, the body hasn't been parsed yet,
            // so document.querySelectorAll('time[datetime]') is empty. Re-run
            // once the DOM is built, then keep upgrading htmx-swapped fragments.
            document.addEventListener('DOMContentLoaded', () => \x7b
                upgrade(document);
                document.body.addEventListener('htmx:after:swap', (e) => upgrade(e.target));
            \x7d);
        \x7d)();
    </script>

    ")]

def baseHeader : Template := .all [
  .text (lit r#"
</head>

<body class="antialiased" hx-ext="alpine-compat">

    
    <header class="pt-10 pb-8">
        <div class="measure flex items-center justify-between gap-6">
            <a href="/" class="group inline-flex items-center gap-3" aria-label=""#),
  .emit (.t "app-name"),
  .text (lit r#" — home">
                <span class="seal" aria-hidden="true"></span>
                <span class="flex flex-col leading-none">
                    <span class="font-display text-[1.0625rem] tracking-tight" style="font-weight: 500;">
                        "#),
  .emit (.t "app-name"),
  .text (lit r#"
                    </span>
                    <span class="eyebrow mt-1">"#),
  .emit (.t "app-tagline"),
  .text (lit r#"</span>
                </span>
            </a>

            <nav class="flex items-center gap-5" aria-label=""#),
  .emit (.t "nav-account"),
  .text (lit r#"">
                
                            <form method="post" action="/preferences/locale" class="inline-flex items-center">
                                <label class="sr-only" for="locale-select">"#),
  .emit (.t "language-switcher-label"),
  .text (lit r#"</label>
                                <select id="locale-select" name="locale" class="lang-switcher"
                                    hx-post="/preferences/locale" hx-trigger="change" hx-include="this" hx-swap="none">
                                    <option value="en" "#),
  .ifElse (.eq (.var "_locale") (.text "en"))
    (.text (lit "selected"))
    .nothing,
  .text (lit r#">English</option>
                                    <option value="es" "#),
  .ifElse (.eq (.var "_locale") (.text "es"))
    (.text (lit "selected"))
    .nothing,
  .text (lit r#">Español</option>
                                    <option value="fr" "#),
  .ifElse (.eq (.var "_locale") (.text "fr"))
    (.text (lit "selected"))
    .nothing,
  .text (lit r#">Français</option>
                                    <option value="de" "#),
  .ifElse (.eq (.var "_locale") (.text "de"))
    (.text (lit "selected"))
    .nothing,
  .text (lit r#">Deutsch</option>
                                </select>
                                <noscript>
                                    <button type="submit" class="btn-link ml-2">"#),
  .emit (.t "language-switcher-label"),
  .text (lit "</button>
                                </noscript>
                            </form>

                            "),
  .ifElse (.var "user")
    (.all [
      .text (lit r#"
                            <span class="eyebrow hidden sm:inline" title=""#),
      .emit (.field (.var "user") "email"),
      .text (lit r#"">
                                "#),
      .emit (.field (.var "user") "email"),
      .text (lit r#"
                            </span>
                            <form action="/logout" method="post" hx-post="/logout" hx-target="body" hx-push-url="true">
                                <button type="submit" class="btn-link" aria-label=""#),
      .emit (.t "nav-logout"),
      .text (lit r#"">"#),
      .emit (.t "nav-logout"),
      .text (lit "</button>
                            </form>
                            ")])
    (.all [
      .text (lit r#"
                            <a href="/login" class="btn-link">"#),
      .emit (.t "nav-login"),
      .text (lit r#"</a>
                            <a href="/signup" class="btn-link">"#),
      .emit (.t "nav-signup"),
      .text (lit "</a>
                            ")]),
  .text (lit r#"
            </nav>
        </div>
        <div class="measure mt-6">
            <hr class="rule">
        </div>
    </header>

    
    <main id="main" class="pb-24">
        "#)]

def baseFooter : Template := .all [
  .text (lit r#"
    </main>

    
    <footer class="pb-12">
        <div class="measure">
            <hr class="rule mb-6">
            <div class="flex items-center justify-between gap-4 text-[0.6875rem]"
                style="font-family: var(--font-mono); letter-spacing: 0.18em; text-transform: uppercase; color: var(--color-ink-mute);">
                <span>"#),
  .emit (.t "font-credit"),
  .text (lit r#"</span>
                <span aria-hidden="true">·</span>
                <span>"#),
  .emit (.t "printed-in-rust"),
  .text (lit r#"</span>
            </div>
        </div>
    </footer>

    
    <script src=""#),
  .emit (.asset "vendor/htmx-4.0.0-beta3.min.js"),
  .text (lit r#"" defer></script>
    <script src=""#),
  .emit (.asset "vendor/htmx-4.0.0-beta3-ext-alpine-compat.js"),
  .text (lit r#"" defer></script>
    <script src=""#),
  .emit (.asset "vendor/alpine-3.15.12.min.js"),
  .text (lit r#"" defer></script>
    "#)]

def baseEnd : Template := .all [
  .text (lit "
</body>

</html>")]

/-- `base.html`, with what its blocks are filled with. -/
def baseHtml (title head content scripts : Template) : Template := .all [
  baseTop, title, baseHead, head, baseHeader, content, baseFooter, scripts, baseEnd]

def loginTitle : Template := .all [
  .emit (.t "login-page-title")]

def loginForm : Template := .all [
  .text (lit r#"
<section class="measure pt-6">

    <div class="anim-fade-up" style="animation-delay: 40ms;">
        <p class="eyebrow">"#),
  .emit (.t "login-eyebrow"),
  .text (lit r#"</p>
        <h1 class="mt-3 text-[2.25rem] sm:text-[2.75rem] leading-[1.05]" style="font-weight: 400;">
            "#),
  .emit (.t "login-heading"),
  .text (lit r#" <em class="not-italic" style="color: var(--color-vermillion);">"#),
  .emit (.t "login-heading-em"),
  .text (lit "</em>
        </h1>
    </div>

    "),
  .ifElse (.var "error")
    (.all [
      .text (lit r#"
    <div class="notice mt-8 anim-fade-up" role="alert" style="animation-delay: 80ms;">
        <span aria-hidden="true">&#10033;</span>
        <span>"#),
      .emit (.var "error"),
      .text (lit "</span>
    </div>
    ")])
    .nothing,
  .text (lit r#"

    <form class="mt-10 space-y-7 anim-fade-up" style="animation-delay: 140ms;" method="post" action="/login"
        hx-post="/login" hx-target="body" hx-push-url="true">

        "#),
  .ifElse (.var "next")
    (.all [
      .text (lit r#"
        <input type="hidden" name="next" value=""#),
      .emit (.var "next"),
      .text (lit r#"">
        "#)])
    .nothing,
  .text (lit r#"

        <div>
            <label for="email" class="field-label">"#),
  .emit (.t "login-email-label"),
  .text (lit r#"</label>
            <input id="email" name="email" type="email" required autocomplete="email" inputmode="email"
                placeholder=""#),
  .emit (.t "login-email-placeholder"),
  .text (lit r#"" class="field">
        </div>

        <div>
            <label for="password" class="field-label">"#),
  .emit (.t "login-password-label"),
  .text (lit r#"</label>
            <input id="password" name="password" type="password" required autocomplete="current-password" minlength="1"
                placeholder=""#),
  .emit (.t "login-password-placeholder"),
  .text (lit r#"" class="field">
        </div>

        <div class="pt-4 flex items-center justify-between gap-4">
            <a href="/signup" class="btn-link">"#),
  .emit (.t "login-no-account"),
  .text (lit r#"</a>
            <button type="submit" class="btn btn-primary">"#),
  .emit (.t "login-submit"),
  .text (lit "</button>
        </div>
    </form>

    ")]

def loginDevForm : Template := .all [
  .text (lit r#"
    <form method="post" action="/dev/login" class="mt-6 anim-fade-up" style="animation-delay: 180ms;">
        <button type="submit" class="btn-link" style="opacity: 0.7;">
            "#),
  .emit (.t "login-dev-button"),
  .text (lit "
        </button>
    </form>
    ")]

def loginEnd : Template := .all [
  .text (lit "

</section>
")]

def loginContent : Template := .all [
  loginForm, .ifElse (.var "dev_login_enabled") loginDevForm .nothing, loginEnd]

/-- `login.html` -/
def loginHtml : Template := baseHtml loginTitle .nothing loginContent .nothing

def signupTitle : Template := .all [
  .emit (.t "signup-page-title")]

def signupContent : Template := .all [
  .text (lit r#"
<section class="measure pt-6">

    <div class="anim-fade-up" style="animation-delay: 40ms;">
        <p class="eyebrow">"#),
  .emit (.t "signup-eyebrow"),
  .text (lit r#"</p>
        <h1 class="mt-3 text-[2.25rem] sm:text-[2.75rem] leading-[1.05]" style="font-weight: 400;">
            "#),
  .emit (.t "signup-heading"),
  .text (lit r#" <em class="not-italic" style="color: var(--color-vermillion);">"#),
  .emit (.t "signup-heading-em"),
  .text (lit r#"</em>
        </h1>
        <p class="mt-5 max-w-136" style="color: var(--color-ink-soft);">
            "#),
  .emit (.t "signup-intro"),
  .text (lit "
        </p>
    </div>

    "),
  .ifElse (.var "error")
    (.all [
      .text (lit r#"
    <div class="notice mt-8 anim-fade-up" role="alert" style="animation-delay: 80ms;">
        <span aria-hidden="true">&#10033;</span>
        <span>"#),
      .emit (.var "error"),
      .text (lit "</span>
    </div>
    ")])
    .nothing,
  .text (lit r#"

    <form class="mt-10 space-y-7 anim-fade-up" style="animation-delay: 140ms;" method="post" action="/signup"
        hx-post="/signup" hx-target="body" hx-push-url="true">

        <div>
            <label for="email" class="field-label">"#),
  .emit (.t "login-email-label"),
  .text (lit r#"</label>
            <input id="email" name="email" type="email" required autocomplete="email" inputmode="email"
                placeholder=""#),
  .emit (.t "login-email-placeholder"),
  .text (lit r#"" class="field">
        </div>

        <div>
            <label for="password" class="field-label">"#),
  .emit (.t "login-password-label"),
  .text (lit r#"</label>
            <input id="password" name="password" type="password" required autocomplete="new-password" minlength="12"
                placeholder=""#),
  .emit (.t "login-password-placeholder"),
  .text (lit r#"" aria-describedby="password-help" class="field">
            <p id="password-help" class="eyebrow mt-2"
                style="text-transform: none; letter-spacing: 0.08em; font-style: italic;">
                "#),
  .emit (.t "signup-password-help"),
  .text (lit r#"
            </p>
        </div>

        <div class="pt-4 flex items-center justify-between gap-4">
            <a href="/login" class="btn-link">"#),
  .emit (.t "signup-have-account"),
  .text (lit r#"</a>
            <button type="submit" class="btn btn-primary">"#),
  .emit (.t "signup-submit"),
  .text (lit "</button>
        </div>
    </form>

</section>
")]

/-- `signup.html` -/
def signupHtml : Template := baseHtml signupTitle .nothing signupContent .nothing

def indexTitle : Template := .all [
  .emit (.t "index-page-title")]

def indexHeading : Template := .all [
  .text (lit "
<section class=\"measure\" x-data=\"\x7b filter: 'all' \x7d\">

    
    <div class=\"anim-fade-up\" style=\"animation-delay: 40ms;\">
        <p class=\"eyebrow\">"),
  .emit (.t "index-eyebrow"),
  .text (lit r#"</p>
        <h1 class="mt-3 text-[2.5rem] sm:text-[3rem] leading-[1.05]" style="font-weight: 400;">
            "#),
  .emit (.t "index-heading"),
  .text (lit r#"<br>
            <em class="not-italic" style="color: var(--color-vermillion); font-weight: 500;">
                "#),
  .emit (.t "index-heading-em"),
  .text (lit r#"
            </em>
        </h1>
        <p class="mt-5 max-w-xl" style="color: var(--color-ink-soft);">
            "#),
  .emit (.t "index-intro")]

def indexCreateForm : Template := .all [
  .text (lit "
        </p>
    </div>

    
    <form class=\"mt-12 anim-fade-up\" style=\"animation-delay: 140ms;\" hx-post=\"/todos\" hx-target=\"#todo-list\"
        hx-swap=\"afterbegin\" hx-on::after:swap=\"this.reset(); this.querySelector('input[name=title]').focus();\">
        <label for=\"new-todo\" class=\"field-label\">"),
  .emit (.t "new-entry-label"),
  .text (lit r#"</label>
        <div class="flex items-end gap-3">
            <input id="new-todo" name="title" type="text" required minlength="1" maxlength="280" autocomplete="off"
                spellcheck="true" placeholder=""#),
  .emit (.t "new-entry-placeholder"),
  .text (lit r#"" class="field flex-1">
            <button type="submit" class="btn btn-primary shrink-0" aria-label=""#),
  .emit (.t "new-entry-submit"),
  .text (lit r#"">
                "#),
  .emit (.t "new-entry-submit"),
  .text (lit r#"
            </button>
        </div>
        <p class="mt-2 flex items-center justify-between">
            <span class="eyebrow">"#),
  .emit (.t "new-entry-hint"),
  .text (lit r#"</span>
            <span class="submit-spinner" aria-live="polite">"#),
  .emit (.t "new-entry-spinner")]

def indexFilterTabs : Template := .all [
  .text (lit r#"</span>
        </p>
    </form>

    
    <div class="mt-14 anim-fade-up" style="animation-delay: 220ms;">
        <div class="flex items-center justify-between gap-4 mb-3">
            <p class="eyebrow">"#),
  .emit (.t "ledger-label"),
  .text (lit r#"</p>
            <div role="tablist" aria-label=""#),
  .emit (.t "filter-aria"),
  .text (lit r#"" class="flex items-center gap-6">
                <button type="button" role="tab" class="tab" :aria-pressed="filter === 'all'" @click="filter = 'all'"
                    aria-pressed="true">"#),
  .emit (.t "filter-all"),
  .text (lit r#"</button>
                <button type="button" role="tab" class="tab" :aria-pressed="filter === 'active'"
                    @click="filter = 'active'" aria-pressed="false">"#),
  .emit (.t "filter-active"),
  .text (lit r#"</button>
                <button type="button" role="tab" class="tab" :aria-pressed="filter === 'done'" @click="filter = 'done'"
                    aria-pressed="false">"#),
  .emit (.t "filter-done")]

def indexList : Template := .all [
  .text (lit "</button>
            </div>
        </div>
        <hr class=\"rule-double\">
    </div>

    
    <div class=\"anim-fade-up\" style=\"animation-delay: 300ms;\" :class=\"\x7b
         'filter-all':    filter === 'all',
         'filter-active': filter === 'active',
         'filter-done':   filter === 'done'
       \x7d\">
        "),
  todoListHtml,
  .text (lit r#"

        
            <p class="empty-state" data-when="all">
                "#),
  .emit (.t "empty-state-one"),
  .text (lit "<br>"),
  .emit (.t "empty-state-two"),
  .text (lit "
            </p>
    </div>

</section>
")]

def indexContent : Template := .all [indexHeading, indexCreateForm, indexFilterTabs, indexList]

/-- `index.html` -/
def indexHtml : Template := baseHtml indexTitle .nothing indexContent .nothing

/-- `Environment::get_template`, for the names the handlers render. -/
def templateOf : String → Option Template
  | "index.html" => some indexHtml
  | "login.html" => some loginHtml
  | "signup.html" => some signupHtml
  | "partials/todo.html" => some todoHtml
  | "partials/todo_list.html" => some todoListHtml
  | _ => none

end TodoRust.Pages
